/-
Bringing transactions into the index's form, from the bytes in a block and the
results of running them, or from a search answer. A transaction that failed
keeps its signers and fees and has no messages and no logs. Signers and fees
depend on the auth info alone and not on how the transaction ran.
-/
import ChainIndex.Block.Basic
import ChainIndex.Json.Reader
import ChainIndex.Text.Case
import ChainIndex.Tx.Basic
import ChainIndex.Tx.Decoder
import ChainIndex.Tx.Search

namespace ChainIndex

/-- The name of a transaction: its SHA-256 digest in upper-case hex. -/
def txHash (bs : Bytes) : String :=
  (Digest.Sha256.digest bs).toUpperHex

namespace MessageLog

def ofSearch (l : SearchLog) : MessageLog :=
  { index := l.messageIndex.toNat, log := l.log, events := l.events }

/-- The message that an event is tagged with, if it is one of the first
`count`. -/
def taggedIndex? (count : Nat) (e : Event) : Option Nat :=
  ((e.attribute? "msg_index").bind Text.word64?).filter (· < count)

/-- One log for each message, with the events tagged for it. -/
def group (events : List Event) (count : Nat) : List MessageLog :=
  (List.range count).map fun i =>
    { index := i, log := "", events := events.filter fun e => taggedIndex? count e == some i }

/-- The logs in a raw log that holds a JSON list of them. -/
def ofRawLog? (text : String) : Option (List MessageLog) := do
  let j ← Json.ofText? text
  let logs ← Json.list SearchLog.ofJson? j
  return logs.map ofSearch

/-- The logs of the messages of a transaction: those in the raw log if that is
a JSON list, else the tagged events, and none for a transaction that failed. -/
def ofResult (code : Nat) (rawLog : String) (events : List Event) (count : Nat) :
    Except DecodeError (List MessageLog) :=
  if code ≠ 0 then .ok []
  else
    let trimmed := Text.trim rawLog
    if trimmed.toList.head? = some '[' then
      match ofRawLog? trimmed with
      | some logs => .ok logs
      | none => .error (.invalidLogs "not a list of message logs")
    else .ok (group events count)

end MessageLog

/-- The fees of the coins that are not zero. The named payer pays, or else the
first signer. -/
def collectFees (fee : FeeOffer) (signers : List String) : List Fee :=
  let payer := if fee.payer.isEmpty then signers.head?.getD "" else fee.payer
  (fee.amount.filter (!·.amount.isZero)).map fun coin =>
    { amount := coin.amount, denom := coin.denom, payer }

/-- Each element at its first place only. -/
def distinct [DecidableEq α] (xs : List α) : List α :=
  xs.foldl (fun seen x => if x ∈ seen then seen else seen ++ [x]) []

/-- The signers in order, each once, and then the fee payer if it is new. -/
def collectSigners (addresses : List String) (payer : String) : List String :=
  distinct (addresses ++ if payer.isEmpty then [] else [payer])

/-- Gives each message the events of the first log with its index. -/
def attachEvents (logs : List MessageLog) (messages : List TxMessage) : List TxMessage :=
  messages.map fun m =>
    match logs.find? (·.index == m.index) with
    | some log => { m with events := log.events }
    | none => m

/-! Transactions out of blocks -/

namespace Decoder

def keyAddress (d : Decoder) (k : SignerKey) : Except DecodeError String :=
  (d.book.ofKeyBytes k.key k.hint).mapError .address

def signerAddresses (d : Decoder) (auth : AuthInfo) : Except DecodeError (List String) :=
  (auth.signers.flatMap (·.keys)).mapM d.keyAddress

/-- The messages of a transaction that ran, with their logs. -/
def rawMessages (decoded : DecodedTx) (result : TxResult) :
    Except DecodeError (List TxMessage × List MessageLog) :=
  if result.code ≠ 0 then .ok ([], [])
  else do
    let logs ← MessageLog.ofResult result.code result.log result.events decoded.messages.length
    let messages := decoded.messages.zipIdx.map fun (m, i) =>
      { index := i, typeUrl := m.typeUrl, payload := .raw m.value, events := [] : TxMessage }
    return (attachEvents logs messages, logs)

/-- A transaction of a block, with the result of running it. -/
def normalizeRaw (d : Decoder) (block : Block) (bs : Bytes) (result : TxResult) :
    Except DecodeError TxRecord := do
  let decoded ← d.decode bs
  let addresses ← d.signerAddresses decoded.authInfo
  let signers := collectSigners addresses decoded.authInfo.fee.payer
  let (messages, logs) ← rawMessages decoded result
  return {
    hash := txHash bs, height := block.height, timestamp := block.time,
    code := result.code, codespace := result.codespace, rawLog := result.log,
    gasWanted := result.gasWanted, gasUsed := result.gasUsed,
    memo := decoded.memo, timeoutHeight := decoded.timeoutHeight,
    messages, signers, authInfo := decoded.authInfo, logs,
    fees := collectFees decoded.authInfo.fee signers, data := [],
    droppedExtensions := decoded.droppedExtensions,
    decodedWithFallback := decoded.usedFallback }

def missingResult (index : Nat) (height : Int) : DecodeError :=
  .invalidEnvelope s!"no execution result for tx {index} at height {height}"

/-- All transactions of a block, each with the result at its place. -/
def normalizeBlock (d : Decoder) (block : Block) (results : BlockResults) :
    List (Except DecodeError TxRecord) :=
  block.txs.zipIdx.map fun (bs, i) =>
    match results.txResults[i]? with
    | some result => d.normalizeRaw block bs result
    | none => .error (missingResult i block.height)

/-! Transactions out of search answers -/

/-- A key in JSON: its type URL and its text. -/
def jsonKey? (j : Json) : Option (String × String) :=
  match j.get? "@type", j.get? "key" with
  | some (.string typeUrl), some (.string key) => some (typeUrl, key)
  | _, _ => none

/-- An unsigned number or its decimal text, and zero for anything else. -/
def jsonWord64 : Option Json → Nat
  | some (.string s) => (Text.word64? s).getD 0
  | some (.number (.integer n)) => n.toNat
  | _ => 0

/-- The keys of a signer: those of a multisig that can be read, or the one. -/
def jsonKeys (publicKey : Json) : List (String × String) :=
  if publicKey.textAt "@type" = multisigTypeUrl then
    (publicKey.itemsAt "public_keys").filterMap jsonKey?
  else (jsonKey? publicKey).toList

/-- A key and its address. Bytes are kept of a base64 key only. -/
def jsonSignerKey (d : Decoder) (key : String × String) :
    Except DecodeError (SignerKey × String) := do
  let k : SignerKey := { typeUrl := key.1, key := (Bytes.Base64.decode? key.2).getD [] }
  let address ← (d.book.ofKeyText key.2 k.hint).mapError .address
  return (k, address)

/-- A signer and the addresses of its keys. -/
def jsonSigner (d : Decoder) (info : Json) : Except DecodeError (SignerInfo × List String) := do
  let publicKey := (info.get? "public_key").getD .null
  let keys ← (jsonKeys publicKey).mapM d.jsonSignerKey
  let signer : SignerInfo := {
    keyTypeUrl := publicKey.textAt "@type", keys := keys.map (·.1),
    sequence := jsonWord64 (info.get? "sequence") }
  return (signer, keys.map (·.2))

def jsonCoin (j : Json) : Except DecodeError Coin :=
  (Coin.ofParts (j.textAt "amount") (j.textAt "denom")).mapError DecodeError.ofCoin

def jsonFee (fee : Json) : Except DecodeError FeeOffer := do
  let amount ← (fee.itemsAt "amount").mapM jsonCoin
  return {
    amount, gasLimit := jsonWord64 (fee.get? "gas_limit"),
    payer := fee.textAt "payer", granter := fee.textAt "granter" }

/-- The auth info in JSON, with the addresses of all keys in order. -/
def jsonAuthInfo (d : Decoder) (j : Json) : Except DecodeError (AuthInfo × List String) := do
  let signers ← (j.itemsAt "signer_infos").mapM d.jsonSigner
  let fee ← jsonFee ((j.get? "fee").getD .null)
  return ({ signers := signers.map (·.1), fee }, signers.flatMap (·.2))

def missingType (index : Nat) (hash : String) : DecodeError :=
  .unknownMessageType s!"message {index} of {hash} has no @type"

/-- A message in JSON names its type. -/
def jsonMessage (hash : String) (message : Json) (index : Nat) : Except DecodeError TxMessage :=
  match message.get? "@type" with
  | some (.string typeUrl) => .ok { index, typeUrl, payload := .json message, events := [] }
  | _ => .error (missingType index hash)

/-- The messages of a found transaction that ran, with their logs. -/
def foundMessages (tx : SearchTx) (result : SearchResult) :
    Except DecodeError (List TxMessage × List MessageLog) :=
  if result.code ≠ 0 then .ok ([], [])
  else do
    let logs ←
      if result.logs.isEmpty then
        MessageLog.ofResult result.code result.rawLog result.events tx.messages.length
      else .ok (result.logs.map MessageLog.ofSearch)
    let messages ← tx.messages.zipIdx.mapM fun (m, i) => jsonMessage result.hash m i
    return (attachEvents logs messages, logs)

/-- A transaction of a search answer; the block stands in for a height or time
that the answer does not give. -/
def normalizeFound (d : Decoder) (block : Block) (tx : SearchTx) (result : SearchResult) :
    Except DecodeError TxRecord := do
  let (auth, addresses) ← d.jsonAuthInfo tx.authInfo
  let signers := collectSigners addresses auth.fee.payer
  let (messages, logs) ← foundMessages tx result
  return {
    hash := Text.upper result.hash,
    height := if 0 < result.height then result.height else block.height,
    timestamp := (Instant.rfc3339? result.timestamp).getD block.time,
    code := result.code, codespace := result.codespace, rawLog := result.rawLog,
    gasWanted := result.gasWanted, gasUsed := result.gasUsed,
    memo := tx.memo, timeoutHeight := tx.timeoutHeight.toNat,
    messages, signers, authInfo := auth, logs,
    fees := collectFees auth.fee signers, data := [],
    droppedExtensions := [], decodedWithFallback := false }

def unequalAnswer (height : Int) (txs results : Nat) : DecodeError :=
  .invalidEnvelope s!"tx search at height {height} returned {txs} txs but {results} responses"

/-- All transactions of a search answer, each with the result at its place. -/
def normalizeSearch (d : Decoder) (block : Block) (answer : SearchAnswer) :
    List (Except DecodeError TxRecord) :=
  if answer.txs.length ≠ answer.results.length then
    [.error (unequalAnswer block.height answer.txs.length answer.results.length)]
  else (answer.txs.zip answer.results).map fun (tx, result) => d.normalizeFound block tx result

end Decoder

end ChainIndex
