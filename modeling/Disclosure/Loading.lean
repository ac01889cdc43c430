import Disclosure.Files
import Disclosure.LogRecord
import Disclosure.Request.Reader
import Disclosure.Text.Utf8
import Disclosure.Value.Yaml
import Disclosure.Wallet

/-!
# Disclosure.Loading — requests and wallets from files

A file is read, decoded as UTF-8, and its text is read as JSON or YAML; then the request or the wallet is read from
the decoded data.  Failures that nobody is meant to see have no wording: a name that no file can have, a file that is
not UTF-8, a text with a flaw, a number that cannot be shown, and a comparison without end.
-/

namespace Disclosure

/-- Why a request or a wallet cannot be loaded. -/
inductive Failure where
  /-- The file cannot be read. -/
  | unreadable (path : Path) (fault : ReadFault)
  /-- The file is not UTF-8. -/
  | undecodable (path : Path)
  /-- The text is neither JSON nor YAML. -/
  | unparsable (path : Path) (fault : Yaml.Fault)
  /-- The text is well written and stands for nothing. -/
  | flawed (path : Path) (flaw : Yaml.Flaw)
  /-- The data are no request, or the request cannot be used. -/
  | request (e : RequestError)
  /-- The data are no wallet. -/
  | wallet (e : WalletError)

/-- The wording of each failure that has one. -/
def Failure.message? : Failure → Option Text
  | .unreadable path fault => fault.message?.map (fun m => Text.ofString ("Cannot read " ++ path.text ++ ": " ++ m))
  | .undecodable _ | .flawed .. => none
  | .unparsable path fault => some ("Cannot parse " ++ path.text ++ ": " ++ fault.message : String)
  | .request e => if e.isReported then some e.message else none
  | .wallet e => if e.isReported then some e.message else none

/-- The channel of loading records. -/
def loadingChannel : String := "dcqlmatch.cli.config"

/-- The record of a loaded request. -/
def Request.loadedFrom (r : Request) (path : Path) : LogRecord :=
  let sets := match r.grouping with
    | none => "no"
    | some sets => Nat.repr sets.length
  ⟨.debug, loadingChannel,
    "loaded request from " ++ path.text ++ ": " ++ Nat.repr r.catalogue.size ++ " credentials, " ++ sets
      ++ " credential sets"⟩

/-- The record of a loaded wallet. -/
def Wallet.loadedFrom (wallet : Wallet) (path : Path) : LogRecord :=
  ⟨.debug, loadingChannel, "loaded " ++ Nat.repr wallet.length ++ " documents from " ++ path.text⟩

/-- A text that cannot be read. -/
def Failure.ofFault (path : Path) (fault : Yaml.Fault) : Failure :=
  match fault.cause.flaw? with
  | some flaw => .flawed path flaw
  | none => .unparsable path fault

/-- Bytes that are not UTF-8.  A fault of the text counts if it shows before the bad byte is noticed. -/
def Failure.ofBytes (path : Path) (bytes : ByteArray) : Failure :=
  let known := Text.handedOn bytes.data.toList
  match (Yaml.forbidden? known).or (Yaml.startFault? known) with
  | some fault => .ofFault path fault
  | none => .undecodable path

namespace Files

/-- The decoded data of a file. -/
def loadValue (files : Files) (path : Path) : Except Failure Value :=
  match files path with
  | .error fault => .error (.unreadable path fault)
  | .ok bytes =>
    match String.fromUTF8? bytes with
    | none => .error (.ofBytes path bytes)
    | some s => (Value.ofYaml (Text.unifyLineEnds s.toList)).mapError (Failure.ofFault path)

/-- The request in a file. -/
def loadRequest (files : Files) (path : Path) : Except Failure Request := do
  let v ← files.loadValue path
  (Request.ofValue v).mapError Failure.request

/-- The wallet in a file. -/
def loadWallet (files : Files) (path : Path) : Except Failure Wallet := do
  let v ← files.loadValue path
  (Wallet.ofValue v).mapError Failure.wallet

/-- The wallet file of a directory. -/
def defaultWallet (directory : Path) : Path := directory.join (.ofText "wallet.yml")

/-- The wallet file to use: the given one, else that of the directory if there is such a file. -/
def walletPath? (files : Files) (given : Option Path) (directory : Path) : Option Path :=
  match given with
  | some path => some path
  | none => if files.isFile (defaultWallet directory) then some (defaultWallet directory) else none

end Files

end Disclosure
