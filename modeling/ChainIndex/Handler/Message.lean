/-
Handlers of transaction messages. A handler reads a message with its events and
gives the value that it moves, or refuses it. The handlers of a message type
are tried in order, and a message that all of them refuse fails its whole
transaction; types that have no handler are passed over.
-/
import ChainIndex.Handler.Basic
import ChainIndex.Message.Basic
import ChainIndex.Text.Case
import ChainIndex.Tx.Error

namespace ChainIndex

open Wire (CoinText)

inductive MessageHandlerError where
  | unreadable (typeUrl : String)
  | invalidPayload (typeUrl reason : String)
  | invalidLog (typeUrl reason : String)
  | exhausted (typeUrl txHash : String)
  | registration (cause : RegistrationError)
  deriving DecidableEq

def MessageHandlerError.message : MessageHandlerError → String
  | unreadable typeUrl => "Message " ++ typeUrl ++ " could not be read: malformed payload"
  | invalidPayload typeUrl reason => "Message " ++ typeUrl ++ " could not be read: " ++ reason
  | invalidLog typeUrl reason => "Message " ++ typeUrl ++ " has an unexpected log: " ++ reason
  | exhausted typeUrl txHash => "All handlers failed for message " ++ typeUrl ++ " of tx " ++ txHash
  | registration (.duplicate id) => "Message handler " ++ id ++ " is already registered"
  | registration (.typeMismatch id registered handles) =>
    "Message handler " ++ id ++ " handles " ++ handles ++ " but was registered for " ++ registered

/-- What reads messages of one type. -/
structure MessageHandler where
  typeUrl : String
  read : TxMessage → Except MessageHandlerError (List MessageData)

namespace TxMessage

/-- The first event of a type. -/
def event? (m : TxMessage) (eventType : String) : Option Event :=
  m.events.find? (·.eventType == eventType)

/-- The payload as a record of the handler's type. -/
def payloadAs (m : TxMessage) (wire : Nat → List Wire.Field → Option α)
    (json : Json → Option α) : Except MessageHandlerError α :=
  match m.payload.read? wire json with
  | some a => .ok a
  | none => .error (.unreadable m.typeUrl)

/-- One entry for each coin. -/
def entries (m : TxMessage) (sender receiver : String) (coins : List Coin) : List MessageData :=
  coins.map fun coin =>
    { messageIndex := m.index, typeUrl := m.typeUrl, sender, receiver,
      amount := coin.amount, denom := coin.denom }

end TxMessage

namespace MessageHandler

def sendType : String := "/cosmos.bank.v1beta1.MsgSend"
def multiSendType : String := "/cosmos.bank.v1beta1.MsgMultiSend"
def withdrawRewardType : String := "/cosmos.distribution.v1beta1.MsgWithdrawDelegatorReward"
def withdrawCommissionType : String := "/cosmos.distribution.v1beta1.MsgWithdrawValidatorCommission"

/-- The amount of a coin in a message; blanks are not allowed, and any
denomination is. -/
def payloadCoin (typeUrl : String) (c : CoinText) : Except MessageHandlerError Coin := do
  let amount ← (Decimal.parse? c.amount).mapError fun cause =>
    .invalidPayload typeUrl
      ("amount " ++ Text.quoted c.amount ++ " of " ++ c.denom ++ ": " ++ cause.message)
  return { amount, denom := c.denom }

/-- The coins of a message that are not zero. -/
def payloadCoins (typeUrl : String) (cs : List CoinText) :
    Except MessageHandlerError (List Coin) := do
  let coins ← cs.mapM (payloadCoin typeUrl)
  return coins.filter (!·.amount.isZero)

/-- The coins of an event's amount in whole units, without those that are less
than one; a missing amount is no coins. -/
def logCoins (typeUrl : String) (e : Event) : Except MessageHandlerError (List Coin) := do
  let coins ← (Coin.parseList (e.attributeD "amount")).mapError fun cause =>
    .invalidLog typeUrl (DecodeError.ofCoin cause).message
  return (coins.map fun c => { c with amount := c.amount.truncate }).filter (!·.amount.isZero)

/-! Sends -/

/-- The receiver named in the log, if there is one, must be that of the
message. -/
def checkRecipient (m : TxMessage) (receiver : String) : Except MessageHandlerError Unit :=
  match (m.event? "transfer").bind (·.attribute? "recipient") with
  | some recipient =>
    if Text.equalIgnoringCase recipient receiver then .ok ()
    else .error (.invalidLog m.typeUrl
      ("transfer recipient " ++ recipient ++ " does not match " ++ receiver))
  | none => .ok ()

def readSend (m : TxMessage) : Except MessageHandlerError (List MessageData) := do
  let msg ← m.payloadAs Wire.send? Json.send?
  checkRecipient m msg.receiver
  let coins ← payloadCoins m.typeUrl msg.amount
  return m.entries msg.sender msg.receiver coins

/-! Multi-sends -/

/-- Sums by denomination, in ascending order of the denominations. -/
abbrev Totals := List (String × Decimal)

def Totals.add (denom : String) (amount : Decimal) : Totals → Totals
  | [] => [(denom, Decimal.zero + amount)]
  | (d, total) :: rest =>
    if denom = d then (d, total + amount) :: rest
    else if denom < d then (denom, Decimal.zero + amount) :: (d, total) :: rest
    else (d, total) :: Totals.add denom amount rest

def Totals.ofCoins (coins : List Coin) : Totals :=
  coins.foldl (fun totals c => Totals.add c.denom c.amount totals) []

/-- The same denominations with the same values. -/
def Totals.sameAs (s t : Totals) : Bool :=
  s.length == t.length && (s.zip t).all fun (a, b) => a.1 == b.1 && a.2.sameValue b.2

def Totals.render (t : Totals) : String :=
  "\x7b" ++ ", ".intercalate (t.map fun (denom, total) =>
    Text.quoted denom ++ ": BigDecimal(\"" ++ total.render ++ "\")") ++ "\x7d"

/-- The coins of all inputs or outputs. -/
def allCoins (typeUrl : String) (parts : List AddressCoins) :
    Except MessageHandlerError (List Coin) := do
  let coins ← parts.mapM fun part => payloadCoins typeUrl part.coins
  return coins.flatten

/-- The sender is known where there is only one input. -/
def onlyAddress : List AddressCoins → String
  | [input] => input.address
  | _ => ""

def readMultiSend (m : TxMessage) : Except MessageHandlerError (List MessageData) := do
  let msg ← m.payloadAs Wire.multiSend? Json.multiSend?
  let sent ← allCoins m.typeUrl msg.inputs
  let received ← allCoins m.typeUrl msg.outputs
  let sentTotals := Totals.ofCoins sent
  let receivedTotals := Totals.ofCoins received
  if !sentTotals.sameAs receivedTotals then
    throw (.invalidPayload m.typeUrl
      ("inputs " ++ sentTotals.render ++ " do not match outputs " ++ receivedTotals.render))
  let data ← msg.outputs.mapM fun output => do
    let coins ← payloadCoins m.typeUrl output.coins
    return m.entries (onlyAddress msg.inputs) output.address coins
  return data.flatten

/-! Withdrawals -/

/-- Rewards go to the recipient in the log, else to the delegator. -/
def readWithdrawReward (m : TxMessage) : Except MessageHandlerError (List MessageData) := do
  let msg ← m.payloadAs Wire.withdrawReward? Json.withdrawReward?
  let transfer := m.event? "transfer"
  let receiver := (transfer.bind (·.attribute? "recipient")).getD msg.delegator
  let coins ← match (m.event? "withdraw_rewards").or transfer with
    | some source => logCoins m.typeUrl source
    | none => .ok []
  return m.entries "" receiver coins

/-- Who received a payout, and the event that says so. -/
def payout? (m : TxMessage) : Option (String × Event) :=
  let named (eventType key : String) : Option (String × Event) := do
    let e ← m.event? eventType
    let receiver ← e.attribute? key
    return (receiver, e)
  (named "coin_received" "receiver").or (named "transfer" "recipient")

/-- The amount of a commission is that of its own event, or else that of the
payout; an amount without a receiver must be zero. -/
def readWithdrawCommission (m : TxMessage) : Except MessageHandlerError (List MessageData) := do
  let msg ← m.payloadAs Wire.withdrawCommission? Json.withdrawCommission?
  match payout? m, m.event? "withdraw_commission" with
  | some (receiver, _), some withdrawn => do
    let coins ← logCoins m.typeUrl withdrawn
    return m.entries "" receiver coins
  | some (receiver, source), none => do
    let coins ← logCoins m.typeUrl source
    return m.entries "" receiver coins
  | none, some withdrawn => do
    let coins ← logCoins m.typeUrl withdrawn
    if coins.isEmpty then return []
    else throw (.invalidLog m.typeUrl
      ("commission of " ++ msg.validator ++ " withdrawn without a receiver"))
  | none, none => throw (.invalidLog m.typeUrl "no commission withdrawal events")

def send : MessageHandler := ⟨sendType, readSend⟩
def multiSend : MessageHandler := ⟨multiSendType, readMultiSend⟩
def withdrawReward : MessageHandler := ⟨withdrawRewardType, readWithdrawReward⟩
def withdrawCommission : MessageHandler := ⟨withdrawCommissionType, readWithdrawCommission⟩

end MessageHandler

/-- The handlers of each message type. -/
abbrev MessageRegistry := HandlerTable String MessageHandler

/-- A registration, which may fail and leaves a registry in either case. -/
abbrev MessageRegistration := ExceptT MessageHandlerError (StateM MessageRegistry) Unit

namespace MessageRegistry

def register (isGeneric : Bool) (typeUrl id : String) (handler : MessageHandler) :
    MessageRegistration := do
  let registry ← get
  match Registered.insert MessageHandler.typeUrl typeUrl { id, isGeneric, handler }
      (HandlerTable.get registry typeUrl) with
  | .ok hs => set (HandlerTable.set typeUrl hs registry)
  | .error e => throw (.registration e)

/-- The handlers that suit every chain. -/
def registerGenericSet : MessageRegistration := do
  register true MessageHandler.sendType "generic-bank-send" .send
  register true MessageHandler.multiSendType "generic-bank-multi-send" .multiSend
  register true MessageHandler.withdrawRewardType "generic-withdraw-delegator-reward"
    .withdrawReward
  register true MessageHandler.withdrawCommissionType "generic-withdraw-validator-commission"
    .withdrawCommission

/-- The data of the first handler that accepts the message. -/
def dispatchMessage (registry : MessageRegistry) (txHash : String) (m : TxMessage) :
    Except MessageHandlerError (List MessageData) :=
  match HandlerTable.get registry m.typeUrl with
  | [] => .ok []
  | hs =>
    match Registered.firstOk? (·.read m) hs with
    | some data => .ok data
    | none => .error (.exhausted m.typeUrl txHash)

/-- The data of all messages of a transaction, in order. -/
def dispatch (registry : MessageRegistry) (tx : TxRecord) :
    Except MessageHandlerError (List MessageData) := do
  let data ← tx.messages.mapM (dispatchMessage registry tx.hash)
  return data.flatten

end MessageRegistry

end ChainIndex
