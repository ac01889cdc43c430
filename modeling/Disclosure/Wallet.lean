import Disclosure.Reading
import Disclosure.Value.Text

/-!
# Disclosure.Wallet — the documents that a wallet holds

A document has an id, a format, and perhaps a type: mobile documents carry a `doctype`, SD-JWT credentials a `vct`.
`Wallet.ofValue` reads a wallet from decoded data; the first entry that is no document is reported by its index.
-/

namespace Disclosure

/-- A document held by the wallet; a type that it does not carry is null. -/
structure Document where
  id : Text
  format : Text
  doctype : Value := .null
  vct : Value := .null
deriving Inhabited

/-- The documents of a wallet, in order. -/
abbrev Wallet := List Document

/-- Why a wallet is refused. -/
inductive WalletError where
  /-- The wallet is neither null nor an object. -/
  | notAMapping
  /-- The documents are not a list. -/
  | documentsNotAList
  /-- The entry is not an object. -/
  | entryNotAMapping (index : Nat)
  /-- The entry has no id or no format. -/
  | entryIncomplete (index : Nat)
  /-- The id or the format is a number with too many digits, or holds one. -/
  | entryNotShowable (index : Nat)
deriving Repr, DecidableEq

/-- Whether the cause is reported to the user. -/
def WalletError.isReported : WalletError → Bool
  | .entryNotShowable _ => false
  | _ => true

/-- The wording of each cause. -/
def WalletError.message : WalletError → String
  | .notAMapping => "Wallet file must be a mapping with a 'documents' list"
  | .documentsNotAList => "'documents' must be a list"
  | .entryNotAMapping index => "documents[" ++ Nat.repr index ++ "]: expected a mapping"
  | .entryIncomplete index => "documents[" ++ Nat.repr index ++ "]: 'id' and 'format' are required"
  | .entryNotShowable index => "documents[" ++ Nat.repr index ++ "]: too many digits"

namespace Document

/-- A document from the fields of an entry: id and format are shown as texts, the types are kept. -/
def ofFields (index : Nat) (fields : Fields) : Except WalletError Document :=
  let id := fields.get "id"
  let format := fields.get "format"
  if id.isBlank || format.isBlank then .error (.entryIncomplete index)
  else if !(id.isShowable && format.isShowable) then .error (.entryNotShowable index)
  else .ok ⟨id.plain, format.plain, fields.get "doctype", fields.get "vct"⟩

/-- The entry with the given index as a document. -/
def ofValue (index : Nat) (v : Value) : Except WalletError Document :=
  match v.untie with
  | .object fields => ofFields index fields
  | _ => .error (.entryNotAMapping index)

/-- The type to show for a document: its doctype, else its vct, else a note that there is none. -/
def typeShown (doctype vct : Value) : Value :=
  if !doctype.isBlank then doctype else if !vct.isBlank then vct else .text "N/A"

/-- Whether the type of a document can be shown. -/
def isShowable (d : Document) : Bool := (typeShown d.doctype d.vct).isShowable

/-- A document with its type in brackets. -/
def text (d : Document) : Text :=
  d.id ++ Text.ofString " (" ++ (typeShown d.doctype d.vct).plain ++ Text.ofString ")"

end Document

namespace Wallet

/-- The documents of a wallet object.  A field that says nothing (null, false, zero, or an empty value) holds no
documents. -/
def ofFields (fields : Fields) : Except WalletError Wallet :=
  let documents := fields.get "documents"
  if documents.isBlank then .ok []
  else
    match documents.untie with
    | .list items => readEach Document.ofValue 0 items
    | _ => .error .documentsNotAList

/-- A wallet from decoded data: null, or an object whose documents are a list. -/
def ofValue (v : Value) : Except WalletError Wallet :=
  match v.untie with
  | .null => .ok []
  | .object fields => ofFields fields
  | _ => .error .notAMapping

end Wallet

end Disclosure
