/-
The protobuf records around a transaction. The envelope holds the bytes of the
body and of the auth info; the body holds messages of any type, each a type URL
with a value in bytes; the auth info says who signed and what fee is offered.
`AuthInfo` is what the index keeps of it, with the keys of a multisig unpacked.
-/
import ChainIndex.Coin
import ChainIndex.Text.Part
import ChainIndex.Wire.Field

namespace ChainIndex

/-- A value of the type that its URL names. -/
structure AnyMessage where
  typeUrl : String
  value : Bytes
  deriving DecidableEq, Inhabited

structure RawTx where
  body : Bytes
  authInfo : Bytes
  signatures : List Bytes

structure TxBody where
  messages : List AnyMessage
  memo : String
  timeoutHeight : Nat

/-- The extension options of a body, critical ones first. -/
structure TxExtensions where
  critical : List AnyMessage
  nonCritical : List AnyMessage

structure SignerKey where
  typeUrl : String
  key : Bytes
  deriving DecidableEq, Inhabited

structure SignerInfo where
  keyTypeUrl : String
  keys : List SignerKey
  sequence : Nat
  deriving DecidableEq, Inhabited

/-- The fee that a transaction offers. -/
structure FeeOffer where
  amount : List Coin
  gasLimit : Nat
  payer : String
  granter : String
  deriving DecidableEq, Inhabited

structure AuthInfo where
  signers : List SignerInfo
  fee : FeeOffer
  deriving DecidableEq, Inhabited

def FeeOffer.empty : FeeOffer := ⟨[], 0, "", ""⟩

def AuthInfo.empty : AuthInfo := ⟨[], .empty⟩

/-- The type URL of a key that several keys make up. -/
def multisigTypeUrl : String := "/cosmos.crypto.multisig.LegacyAminoPubKey"

/-- The algorithm that a key's type URL speaks of. -/
def SignerKey.hint (k : SignerKey) : String :=
  if Text.hasPart "ed25519" k.typeUrl then "ed25519"
  else if Text.hasPart "secp256k1" k.typeUrl then "secp256k1"
  else ""

namespace Wire

def anyMessage? (_ : Nat) (fs : List Field) : Option AnyMessage := do
  let typeUrl ← text 1 fs
  let value ← byteString 2 fs
  return { typeUrl, value }

def rawTx? (_ : Nat) (fs : List Field) : Option RawTx := do
  let body ← byteString 1 fs
  let authInfo ← byteString 2 fs
  let signatures ← repeated Value.bytes? 3 fs
  return { body, authInfo, signatures }

/-- A body without its extension options, which are skipped. -/
def txBody? (nesting : Nat) (fs : List Field) : Option TxBody := do
  let messages ← records nesting anyMessage? 1 fs
  let memo ← text 2 fs
  let timeoutHeight ← word64 3 fs
  return { messages, memo, timeoutHeight }

/-- The extension options of a body alone. -/
def txExtensions? (nesting : Nat) (fs : List Field) : Option TxExtensions := do
  let critical ← records nesting anyMessage? 1023 fs
  let nonCritical ← records nesting anyMessage? 2047 fs
  return { critical, nonCritical }

/-- A body read as a whole, with its extension options. -/
def wholeBody? (nesting : Nat) (fs : List Field) : Option (TxBody × TxExtensions) := do
  let messages ← records nesting anyMessage? 1 fs
  let memo ← text 2 fs
  let timeoutHeight ← word64 3 fs
  let critical ← records nesting anyMessage? 1023 fs
  let nonCritical ← records nesting anyMessage? 2047 fs
  return ({ messages, memo, timeoutHeight }, { critical, nonCritical })

/-- A coin as two texts. -/
structure CoinText where
  denom : String
  amount : String
  deriving DecidableEq, Inhabited

def coinText? (_ : Nat) (fs : List Field) : Option CoinText := do
  let denom ← text 1 fs
  let amount ← text 2 fs
  return { denom, amount }

structure SignerRecord where
  publicKey : Option AnyMessage
  sequence : Nat

def signerRecord? (nesting : Nat) (fs : List Field) : Option SignerRecord := do
  let publicKey ← record? nesting anyMessage? 1 fs
  let sequence ← word64 3 fs
  return { publicKey, sequence }

structure FeeRecord where
  amount : List CoinText
  gasLimit : Nat
  payer : String
  granter : String

def feeRecord? (nesting : Nat) (fs : List Field) : Option FeeRecord := do
  let amount ← records nesting coinText? 1 fs
  let gasLimit ← word64 2 fs
  let payer ← text 3 fs
  let granter ← text 4 fs
  return { amount, gasLimit, payer, granter }

structure AuthRecord where
  signers : List SignerRecord
  fee : Option FeeRecord

def authRecord? (nesting : Nat) (fs : List Field) : Option AuthRecord := do
  let signers ← records nesting signerRecord? 1 fs
  let fee ← record? nesting feeRecord? 2 fs
  return { signers, fee }

/-- The bytes of a single key. -/
def publicKey? (_ : Nat) (fs : List Field) : Option Bytes :=
  byteString 1 fs

/-- The keys of a multisig; its threshold must be readable and is not kept. -/
def multisig? (nesting : Nat) (fs : List Field) : Option (List AnyMessage) := do
  let _ ← word64 1 fs
  records nesting anyMessage? 2 fs

end Wire

end ChainIndex
