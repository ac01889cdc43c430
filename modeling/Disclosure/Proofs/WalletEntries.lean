import Disclosure.Proofs.PlainData

/-!
# Disclosure.Proofs.WalletEntries — how the entries of a wallet become documents

A wallet is read entry by entry.  An entry becomes a document when it has an id and a format, whatever kind of data they
are: data that say something are shown as a text that is not empty.  The first entry without an id or without a format
is reported by its index.  One thing comes before the report: an id or a format with an integer that has too many digits.

* `Value.plain_ne_nil`: what says something has a text.
* `Document.ofValue_eq_ok_iff`, `Document.ofValue_of_not_isNamed`: what becomes of one entry.
* `Wallet.entries_exact`: what becomes of a wallet; the last part is about JSON data, in which no integer is too long.
* `Wallet.long_id_unreported`: an id that cannot be shown.
-/

namespace Disclosure

/-! ### Texts that are not empty -/

theorem Text.ofString_eq_nil_iff {s : String} : Text.ofString s = [] ↔ s = "" := by
  rw [Text.ofString, List.map_eq_nil_iff, String.toList_eq_nil_iff]

theorem int_repr_ne_empty (n : Int) : Int.repr n ≠ "" := by
  cases n with
  | ofNat m => exact Nat.repr_ne_empty
  | negSucc m => simp [Int.repr, String.append_eq_empty_iff]

namespace Binary64

theorem layout_ne_nil (digits : List Char) (exponent : Int) : layout digits exponent ≠ [] := by
  unfold layout
  dsimp only
  split
  · split
    · simp
    · split <;> simp
  · simp

theorem textWith_ne_empty {infinity nan : String} (hi : infinity ≠ "") (hn : nan ≠ "") (x : Binary64) :
    x.textWith infinity nan ≠ "" := by
  cases x with
  | nan => exact hn
  | infinite negative => simp [textWith, String.append_eq_empty_iff, hi]
  | negativeZero => simp [textWith]
  | finite value =>
    simp only [textWith]
    split
    · simp
    · simp [String.append_eq_empty_iff, layout_ne_nil]

end Binary64

namespace Scalar

variable {s : Scalar}

theorem quoted_ne_empty (s : Scalar) : s.quoted ≠ "" := by
  unfold quoted
  split
  · simp
  · simp
  · simp
  · exact int_repr_ne_empty _
  · exact Binary64.textWith_ne_empty (by simp) (by simp) _
  · simp
  · simp [Text.quoted]
  · simp [bytesQuoted]
  · simp [String.append_eq_empty_iff]
  · simp [String.append_eq_empty_iff]

/-- Only the empty text has no text. -/
theorem plain_ne_nil (h : s.isBlank = false) : s.plain ≠ [] := by
  cases s with
  | text t =>
    have ht : t ≠ [] := by simpa [isBlank] using h
    exact ht
  | date d => simp [plain, Text.ofString_eq_nil_iff, Date.text, String.append_eq_empty_iff]
  | moment m => simp [plain, Text.ofString_eq_nil_iff, Moment.text, String.append_eq_empty_iff]
  | _ => exact fun hnil => quoted_ne_empty _ (Text.ofString_eq_nil_iff.1 hnil)

end Scalar

namespace Value

theorem againShown_ne_empty (v : Value) : v.againShown ≠ "" := by
  unfold againShown
  split <;> simp

theorem shown_ne_empty {around : List (Nat × String)} (h : ∀ e ∈ around, e.2 ≠ "") {label : Nat} {shown : String}
    (hshown : around.lookup label = some shown) : shown ≠ "" := by
  obtain ⟨before, later, rfl, -⟩ := List.lookup_eq_some_iff.1 hshown
  exact h (label, shown) (by simp)

/-- Brackets, quotes and names leave no value without characters; a knot is shown as what it holds, or as what is shown
for it inside itself. -/
theorem quotedWithin_ne_empty : ∀ (v : Value) (around : List (Nat × String)), (∀ e ∈ around, e.2 ≠ "") →
    quotedWithin around v ≠ ""
  | .scalar s, _, _ => s.quoted_ne_empty
  | .list _, _, _ => by simp [quotedWithin, String.append_eq_empty_iff]
  | .object _, _, _ => by simp [quotedWithin, String.append_eq_empty_iff]
  | .pair .., _, _ => by simp [quotedWithin, String.append_eq_empty_iff]
  | .set members, _, _ => by
    rw [quotedWithin, setQuoted]
    split <;> simp [String.append_eq_empty_iff]
  | .knot label v, around, h => by
    rw [quotedWithin]
    split
    · rename_i shown hshown
      exact shown_ne_empty h hshown
    · exact quotedWithin_ne_empty v _ (List.forall_mem_cons.2 ⟨v.againShown_ne_empty, h⟩)
  | .again label, around, h => by
    rw [quotedWithin]
    cases hshown : around.lookup label with
    | none => simp
    | some shown => exact shown_ne_empty h hshown

/-- What says something is shown as a text that is not empty. -/
theorem plain_ne_nil {v : Value} (h : v.isBlank = false) : v.plain ≠ [] := by
  cases v with
  | scalar s => exact Scalar.plain_ne_nil h
  | _ => exact fun hnil => quotedWithin_ne_empty _ [] (by simp) (Text.ofString_eq_nil_iff.1 hnil)

end Value

/-! ### One entry -/

/-- It is reported, and the report begins with the index of the entry. -/
def WalletError.Names (f : WalletError) (index : Nat) : Prop :=
  f.isReported = true ∧ ∃ rest, f.message = "documents[" ++ Nat.repr index ++ "]: " ++ rest

theorem WalletError.names_notAMapping (index : Nat) : (WalletError.entryNotAMapping index).Names index :=
  ⟨rfl, "expected a mapping", by simp [message, String.append_assoc]⟩

theorem WalletError.names_incomplete (index : Nat) : (WalletError.entryIncomplete index).Names index :=
  ⟨rfl, "'id' and 'format' are required", by simp [message, String.append_assoc]⟩

namespace Document

variable {e : Value} {d : Document} {i : Nat}

/-- The entry is shown as this document: id and format are texts and not empty, and the types are those of the entry. -/
structure Denotes (e : Value) (d : Document) : Prop where
  id : d.id = (e.member "id").plain
  id_ne : d.id ≠ []
  format : d.format = (e.member "format").plain
  format_ne : d.format ≠ []
  doctype : d.doctype = e.member "doctype"
  vct : d.vct = e.member "vct"

theorem denotes_of_isNamed (h : IsNamed e) :
    Denotes e ⟨(e.member "id").plain, (e.member "format").plain, e.member "doctype", e.member "vct"⟩ where
  id := rfl
  id_ne := Value.plain_ne_nil h.1
  format := rfl
  format_ne := Value.plain_ne_nil h.2
  doctype := rfl
  vct := rfl

theorem Denotes.unique {d' : Document} (h : Denotes e d) (h' : Denotes e d') : d = d' := by
  obtain ⟨id, format, doctype, vct⟩ := d
  obtain ⟨id', format', doctype', vct'⟩ := d'
  have hid : id = id' := h.id.trans h'.id.symm
  have hformat : format = format' := h.format.trans h'.format.symm
  have hdoctype : doctype = doctype' := h.doctype.trans h'.doctype.symm
  have hvct : vct = vct' := h.vct.trans h'.vct.symm
  rw [hid, hformat, hdoctype, hvct]

/-- An entry becomes a document when its id and its format say something and can be shown. -/
theorem ofValue_eq_ok_iff : ofValue i e = .ok d ↔ (IsNamed e ∧ HasShowableNames e) ∧ Denotes e d := by
  constructor
  · intro h
    have hnames : IsNamed e ∧ HasShowableNames e := exists_ofValue_iff.1 ⟨d, h⟩
    rw [eq_of_ofValue h]
    exact ⟨hnames, denotes_of_isNamed hnames.1⟩
  · rintro ⟨hnames, hdenotes⟩
    obtain ⟨d', hd'⟩ := exists_ofValue_iff (i := i).2 hnames
    have hd : d = d' := hdenotes.unique (by rw [eq_of_ofValue hd']; exact denotes_of_isNamed hnames.1)
    rw [hd', hd]

/-- An entry without an id or without a format is reported by its index. -/
theorem ofValue_of_not_isNamed (h : ¬ IsNamed e) : ∃ f, ofValue i e = .error f ∧ f.Names i := by
  unfold ofValue
  split
  · rename_i fields hobject
    have hblank : ((Fields.get fields "id").isBlank || (Fields.get fields "format").isBlank) = true := by
      rw [IsNamed, Value.member_of_untie hobject, Value.member_of_untie hobject] at h
      cases hid : (Fields.get fields "id").isBlank with
      | true => rfl
      | false => simpa [hid] using h
    exact ⟨_, by rw [ofFields]; exact if_pos hblank, WalletError.names_incomplete i⟩
  · exact ⟨_, rfl, WalletError.names_notAMapping i⟩

end Document

/-! ### All entries -/

namespace Wallet

open Document

variable {v : Value} {fields : Fields} {items : List Value} {i : Nat} {e : Value}

theorem ofValue_of_blank (h : v.untie = .object fields) (hblank : (fields.get "documents").isBlank = true) :
    ofValue v = .ok [] := by
  simp only [ofValue, h, ofFields, hblank, if_true]

/-- The entries of a list that is not empty are read one by one. -/
theorem ofValue_of_items (h : v.untie = .object fields) (hitems : (fields.get "documents").untie = .list items)
    (hne : items ≠ []) : ofValue v = readEach Document.ofValue 0 items := by
  have hblank : (fields.get "documents").isBlank = false := by
    cases hb : (fields.get "documents").isBlank with
    | false => rfl
    | true => exact absurd (Value.items_of_untie hitems ▸ Value.items_of_isBlank hb) hne
  simp only [ofValue, h, ofFields, hblank, hitems, Bool.false_eq_true, if_false]

theorem readEach_eq_error {f : WalletError} (hfirst : FirstWithout (fun e => IsNamed e ∧ HasShowableNames e) items i e)
    (hf : Document.ofValue i e = .error f) : readEach Document.ofValue 0 items = .error f := by
  have hread : ∀ i e, (∃ d, Document.ofValue i e = .ok d) ↔ IsNamed e ∧ HasShowableNames e :=
    fun _ _ => exists_ofValue_iff
  exact (readEach_eq_error_iff hread).2 ⟨i, e, hfirst, by rwa [Nat.zero_add]⟩

/-- What becomes of entries, position by position.  The first entry that is no document is reported by its index, unless
it has an id and a format and one of them cannot be shown. -/
structure Converts (items : List Value) (result : Except WalletError Wallet) : Prop where
  accepted : (∀ e ∈ items, IsNamed e ∧ HasShowableNames e) → ∃ w, result = .ok w ∧ List.Forall₂ Denotes items w
  reported : ∀ i e, FirstWithout (fun e => IsNamed e ∧ HasShowableNames e) items i e → ¬ IsNamed e →
    ∃ f, result = .error f ∧ f.Names i
  hidden : ∀ i e, FirstWithout (fun e => IsNamed e ∧ HasShowableNames e) items i e → IsNamed e →
    result = .error (.entryNotShowable i)

theorem converts_readEach (items : List Value) : Converts items (readEach Document.ofValue 0 items) where
  accepted := by
    intro hall
    obtain ⟨w, hw⟩ : ∃ w, List.Forall₂ (fun e d => (IsNamed e ∧ HasShowableNames e) ∧ Denotes e d) items w :=
      exists_forall₂_iff.2 fun e he => ⟨_, hall e he, denotes_of_isNamed (hall e he).1⟩
    have hread : ∀ i e d, Document.ofValue i e = .ok d ↔ (IsNamed e ∧ HasShowableNames e) ∧ Denotes e d :=
      fun _ _ _ => Document.ofValue_eq_ok_iff
    exact ⟨w, (readEach_eq_ok_iff hread).2 hw, hw.imp fun _ _ h => h.2⟩
  reported := by
    intro i e hfirst hnamed
    obtain ⟨f, hf, hnames⟩ := Document.ofValue_of_not_isNamed (i := i) hnamed
    exact ⟨f, readEach_eq_error hfirst hf, hnames⟩
  hidden := by
    intro i e hfirst hnamed
    have hnot : ¬ HasShowableNames e := fun hshowable => hfirst.2.1 ⟨hnamed, hshowable⟩
    exact readEach_eq_error hfirst (Document.ofValue_eq_notShowable_iff.2 ⟨hnamed, hnot, rfl⟩)

/-- The entries of JSON data have ids and formats that can be shown. -/
theorem hasShowableNames_of_isJson (hv : v.IsJson) (h : v.untie = .object fields)
    (hitems : (fields.get "documents").untie = .list items) (he : e ∈ items) : HasShowableNames e := by
  have hdocuments : (fields.get "documents").IsJson := Value.IsJson.get (hv.of_untie h) "documents"
  have hentry : e.IsJson := Value.areJson_iff.1 (hdocuments.of_untie hitems) e he
  have hmember : ∀ name, (e.member name).IsJson := by
    intro name
    unfold Value.member
    split
    · rename_i own hown
      exact Value.IsJson.get (hentry.of_untie hown) name
    · trivial
  exact ⟨(hmember "id").isShowable, (hmember "format").isShowable⟩

/-- **Entries become documents position by position.**  Null and an object without documents are the empty wallet; other
data than objects, and documents that are no list, are refused.  A list of entries gives a wallet of the same length: each
document has the texts of the id and the format of its entry, which are not empty, and the types of the entry.  The first
entry that is no object or has no id or no format is reported by its index.  An integer with too many digits in an id or a
format ends the reading before that; in JSON data there is none. -/
theorem entries_exact (v : Value) :
    (v.untie = .null → ofValue v = .ok []) ∧
      (v.untie ≠ .null → (∀ fields, v.untie ≠ .object fields) → ofValue v = .error .notAMapping) ∧
      ∀ fields : Fields, v.untie = .object fields →
        ((fields.get "documents").isBlank = true → ofValue v = .ok []) ∧
          ((fields.get "documents").isBlank = false → (∀ items, (fields.get "documents").untie ≠ .list items) →
            ofValue v = .error .documentsNotAList) ∧
          ∀ items, (fields.get "documents").untie = .list items → items ≠ [] →
            Converts items (ofValue v) ∧
              (v.IsJson →
                (∀ i e, FirstWithout IsNamed items i e → ∃ f, ofValue v = .error f ∧ f.Names i) ∧
                  ((∀ e ∈ items, IsNamed e) → ∃ w, ofValue v = .ok w ∧ List.Forall₂ Denotes items w)) := by
  refine ⟨?_, ?_, fun fields hobject => ⟨ofValue_of_blank hobject, ?_, fun items hitems hne => ?_⟩⟩
  · intro hnull
    simp only [ofValue, hnull]
  · intro hnull hobject
    unfold ofValue
    split
    · rename_i h
      exact absurd h hnull
    · rename_i fields h
      exact absurd h (hobject fields)
    · rfl
  · intro hblank hlist
    simp only [ofValue, hobject, ofFields, hblank, Bool.false_eq_true, if_false]
  · rw [ofValue_of_items hobject hitems hne]
    have hread := converts_readEach items
    refine ⟨hread, fun hjson => ?_⟩
    have hsame : ∀ e ∈ items, IsNamed e ↔ IsNamed e ∧ HasShowableNames e := fun e he =>
      (and_iff_left (hasShowableNames_of_isJson hjson hobject hitems he)).symm
    constructor
    · intro i e hfirst
      exact hread.reported i e ((firstWithout_congr hsame).1 hfirst) hfirst.2.1
    · intro hall
      exact hread.accepted fun e he => (hsame e he).1 (hall e he)

/-- An id that is a list and a format that is a boolean; then an entry with an empty format. -/
def oddEntries : List Value :=
  [.object [(.text "id", .list [.text "a", .null]), (.text "format", .bool true), (.text "vct", .bool false)],
    .object [(.text "id", .text "b"), (.text "format", .list [])]]

/-- The second entry is reported; the first one alone is a document. -/
theorem entries_exact_odd :
    (∃ f, ofValue (.object [(.text "documents", .list oddEntries)]) = .error f ∧ f.Names 1) ∧
      ∃ w, ofValue (.object [(.text "documents", .list (oddEntries.take 1))]) = .ok w ∧
        List.Forall₂ Denotes (oddEntries.take 1) w := by
  have hjson : Value.AreJson oddEntries := by
    simp [oddEntries, Value.AreJson, Value.IsJson, Value.FieldsJson, Scalar.IsJson]
  have hfirst : IsNamed oddEntries[0] := ⟨rfl, rfl⟩
  have hsecond : FirstWithout IsNamed oddEntries 1 oddEntries[1] := by
    refine ⟨rfl, fun h => Bool.noConfusion h.2, fun j hj b hb => ?_⟩
    obtain rfl : j = 0 := by omega
    exact Option.some.inj hb ▸ hfirst
  obtain ⟨-, -, hboth⟩ := entries_exact (.object [(.text "documents", .list oddEntries)])
  obtain ⟨-, -, hone⟩ := entries_exact (.object [(.text "documents", .list (oddEntries.take 1))])
  constructor
  · have hread := ((hboth _ rfl).2.2 oddEntries rfl (List.cons_ne_nil _ _)).2
    exact (hread ⟨⟨_, rfl⟩, hjson, trivial⟩).1 1 _ hsecond
  · have hread := ((hone _ rfl).2.2 (oddEntries.take 1) rfl (List.cons_ne_nil _ _)).2
    exact (hread ⟨⟨_, rfl⟩, ⟨hjson.1, trivial⟩, trivial⟩).2 (List.forall_mem_singleton.2 hfirst)

/-- An entry whose id is the number `16 ^ 3572`, which has more digits than a number may have. -/
def longEntry : Value := .object [(.text "id", .int (Nat.pow 16 3572 : Nat)), (.text "format", .text "f")]

/-- The entry has an id and a format, but the wallet is refused, and the entry is not reported. -/
theorem long_id_unreported :
    IsNamed longEntry ∧ (∀ w, ofValue (.object [(.text "documents", .list [longEntry])]) ≠ .ok w) ∧
      ∃ f, ofValue (.object [(.text "documents", .list [longEntry])]) = .error f ∧ f.isReported = false := by
  have hnamed : IsNamed longEntry := ⟨by decide +kernel, rfl⟩
  have hlong : (longEntry.member "id").isShowable = false := by decide +kernel
  have hfirst : FirstWithout (fun e => IsNamed e ∧ HasShowableNames e) [longEntry] 0 longEntry :=
    ⟨rfl, fun h => Bool.noConfusion (hlong.symm.trans h.2.1), by omega⟩
  have hread : ofValue (.object [(.text "documents", .list [longEntry])]) = .error (.entryNotShowable 0) :=
    ofValue_eq_notShowable_iff.2 ⟨longEntry, hfirst, hnamed⟩
  refine ⟨hnamed, fun w hw => ?_, _, hread, rfl⟩
  rw [hread] at hw
  cases hw

end Wallet

end Disclosure
