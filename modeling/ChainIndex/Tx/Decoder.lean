/-
Decoding the bytes of a transaction. The strict decoder wants every message
type registered, no critical extension option and a readable auth info. Where
it refuses, the fallback decoder keeps what it can: it needs the envelope and
the body, names the extension options that it drops, and goes without an auth
info that cannot be read. `decode` tries the one and then the other.
-/
import ChainIndex.Tx.Envelope
import ChainIndex.Tx.Error

namespace ChainIndex

/-- A decoded transaction. -/
structure DecodedTx where
  messages : List AnyMessage
  memo : String
  timeoutHeight : Nat
  authInfo : AuthInfo
  droppedExtensions : List String
  usedFallback : Bool
  deriving DecidableEq

/-- What decoding depends on: how addresses are written, and which message
types the strict decoder knows. -/
structure Decoder where
  book : AddressBook
  messageTypes : List String

namespace Decoder

def isRegistered (d : Decoder) (typeUrl : String) : Bool :=
  d.messageTypes.contains typeUrl

def register (d : Decoder) (typeUrl : String) : Decoder :=
  { d with messageTypes := typeUrl :: d.messageTypes }

/-- The message types of the SDK's own modules. -/
def sdkMessageTypes : List String := [
  "/cosmos.bank.v1beta1.MsgSend",
  "/cosmos.bank.v1beta1.MsgMultiSend",
  "/cosmos.staking.v1beta1.MsgCreateValidator",
  "/cosmos.staking.v1beta1.MsgEditValidator",
  "/cosmos.staking.v1beta1.MsgDelegate",
  "/cosmos.staking.v1beta1.MsgUndelegate",
  "/cosmos.staking.v1beta1.MsgBeginRedelegate",
  "/cosmos.staking.v1beta1.MsgCancelUnbondingDelegation",
  "/cosmos.distribution.v1beta1.MsgWithdrawDelegatorReward",
  "/cosmos.distribution.v1beta1.MsgWithdrawValidatorCommission",
  "/cosmos.distribution.v1beta1.MsgSetWithdrawAddress",
  "/cosmos.distribution.v1beta1.MsgFundCommunityPool",
  "/cosmos.gov.v1beta1.MsgSubmitProposal",
  "/cosmos.gov.v1beta1.MsgVote",
  "/cosmos.gov.v1beta1.MsgVoteWeighted",
  "/cosmos.gov.v1beta1.MsgDeposit",
  "/cosmos.gov.v1.MsgSubmitProposal",
  "/cosmos.gov.v1.MsgVote",
  "/cosmos.gov.v1.MsgDeposit",
  "/cosmos.authz.v1beta1.MsgExec",
  "/cosmos.authz.v1beta1.MsgGrant",
  "/cosmos.authz.v1beta1.MsgRevoke",
  "/cosmos.feegrant.v1beta1.MsgGrantAllowance",
  "/cosmos.feegrant.v1beta1.MsgRevokeAllowance",
  "/cosmos.slashing.v1beta1.MsgUnjail",
  "/cosmos.vesting.v1beta1.MsgCreateVestingAccount",
  "/ibc.applications.transfer.v1.MsgTransfer",
  "/ibc.core.client.v1.MsgUpdateClient",
  "/ibc.core.channel.v1.MsgRecvPacket",
  "/ibc.core.channel.v1.MsgAcknowledgement",
  "/ibc.core.channel.v1.MsgTimeout"]

def registerSdkTypes (d : Decoder) : Decoder :=
  sdkMessageTypes.foldl register d

/-! Auth info -/

def authError : DecodeError := .invalidAuthInfo DecodeError.malformed

def orAuthError (x : Option α) : Except DecodeError α :=
  match x with
  | some a => .ok a
  | none => .error authError

/-- A single key out of its wrapper. -/
def signerKey (key : AnyMessage) : Except DecodeError SignerKey := do
  let bytes ← orAuthError (Wire.message? Wire.publicKey? key.value)
  return { typeUrl := key.typeUrl, key := bytes }

/-- A signer without a key has no key type either; the keys of a multisig keep
their order. -/
def signerInfo (r : Wire.SignerRecord) : Except DecodeError SignerInfo :=
  match r.publicKey with
  | none => .ok { keyTypeUrl := "", keys := [], sequence := r.sequence }
  | some key => do
    let keys ←
      if key.typeUrl = multisigTypeUrl then do
        let parts ← orAuthError (Wire.message? Wire.multisig? key.value)
        parts.mapM signerKey
      else (signerKey key).map ([·])
    return { keyTypeUrl := key.typeUrl, keys, sequence := r.sequence }

def coin (c : Wire.CoinText) : Except DecodeError Coin :=
  (Coin.ofParts c.amount c.denom).mapError DecodeError.ofCoin

def feeOffer : Option Wire.FeeRecord → Except DecodeError FeeOffer
  | none => .ok .empty
  | some r => do
    let amount ← r.amount.mapM coin
    return { amount, gasLimit := r.gasLimit, payer := r.payer, granter := r.granter }

def authInfo (bs : Bytes) : Except DecodeError AuthInfo := do
  let r ← orAuthError (Wire.message? Wire.authRecord? bs)
  let signers ← r.signers.mapM signerInfo
  let fee ← feeOffer r.fee
  return { signers, fee }

/-! Transactions -/

def envelope (bs : Bytes) : Except DecodeError RawTx :=
  match Wire.message? Wire.rawTx? bs with
  | some raw => .ok raw
  | none => .error .malformedEnvelope

def bodyError : DecodeError := .invalidBody DecodeError.malformed

def wholeBody (raw : RawTx) : Except DecodeError (TxBody × TxExtensions) :=
  match Wire.message? Wire.wholeBody? raw.body with
  | some b => .ok b
  | none => .error bodyError

def body (raw : RawTx) : Except DecodeError TxBody :=
  match Wire.message? Wire.txBody? raw.body with
  | some b => .ok b
  | none => .error bodyError

def extensions (raw : RawTx) : Except DecodeError TxExtensions :=
  match Wire.message? Wire.txExtensions? raw.body with
  | some x => .ok x
  | none => .error bodyError

def decodeStrict (d : Decoder) (bs : Bytes) : Except DecodeError DecodedTx := do
  let raw ← envelope bs
  let (b, x) ← wholeBody raw
  match x.critical with
  | option :: _ => .error (.unsupportedExtension option.typeUrl)
  | [] =>
    match b.messages.find? fun m => !d.isRegistered m.typeUrl with
    | some m => .error (.unknownMessageType m.typeUrl)
    | none =>
      let auth ← authInfo raw.authInfo
      return {
        messages := b.messages, memo := b.memo, timeoutHeight := b.timeoutHeight,
        authInfo := auth, droppedExtensions := [], usedFallback := false }

/-- The type URLs of all extension options, none if they cannot be read. -/
def extensionTypes (raw : RawTx) : List String :=
  match extensions raw with
  | .ok x => (x.critical ++ x.nonCritical).map (·.typeUrl)
  | .error _ => []

def decodeFallback (bs : Bytes) : Except DecodeError DecodedTx := do
  let raw ← envelope bs
  let b ← body raw
  return {
    messages := b.messages, memo := b.memo, timeoutHeight := b.timeoutHeight,
    authInfo := (authInfo raw.authInfo).toOption.getD .empty,
    droppedExtensions := extensionTypes raw, usedFallback := true }

def decode (d : Decoder) (bs : Bytes) : Except DecodeError DecodedTx :=
  match d.decodeStrict bs with
  | .ok tx => .ok tx
  | .error _ => decodeFallback bs

end Decoder

end ChainIndex
