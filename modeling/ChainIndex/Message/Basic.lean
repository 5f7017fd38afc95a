/-
The message types whose transfers are indexed. Each is read from protobuf bytes
or from the JSON object of a node, in which the fields have the names of the
protobuf definition and amounts are texts; a field that is left out is empty.
-/
import ChainIndex.Json.Record
import ChainIndex.Tx.Basic

namespace ChainIndex

open Wire (CoinText)

/-- Sends coins from one address to another. -/
structure Send where
  sender : String
  receiver : String
  amount : List CoinText
  deriving DecidableEq, Inhabited

/-- An input or output of a multi-send. -/
structure AddressCoins where
  address : String
  coins : List CoinText
  deriving DecidableEq, Inhabited

structure MultiSend where
  inputs : List AddressCoins
  outputs : List AddressCoins
  deriving DecidableEq, Inhabited

structure WithdrawReward where
  delegator : String
  validator : String
  deriving DecidableEq, Inhabited

structure WithdrawCommission where
  validator : String
  deriving DecidableEq, Inhabited

namespace Wire

def send? (nesting : Nat) (fs : List Field) : Option Send := do
  let sender ← text 1 fs
  let receiver ← text 2 fs
  let amount ← records nesting coinText? 3 fs
  return { sender, receiver, amount }

def addressCoins? (nesting : Nat) (fs : List Field) : Option AddressCoins := do
  let address ← text 1 fs
  let coins ← records nesting coinText? 2 fs
  return { address, coins }

def multiSend? (nesting : Nat) (fs : List Field) : Option MultiSend := do
  let inputs ← records nesting addressCoins? 1 fs
  let outputs ← records nesting addressCoins? 2 fs
  return { inputs, outputs }

def withdrawReward? (_ : Nat) (fs : List Field) : Option WithdrawReward := do
  let delegator ← text 1 fs
  let validator ← text 2 fs
  return { delegator, validator }

def withdrawCommission? (_ : Nat) (fs : List Field) : Option WithdrawCommission := do
  let validator ← text 1 fs
  return { validator }

/-! Canonical fields: in ascending order, empty ones left out. -/

def ofCoinText (c : CoinText) : List Field :=
  ofText 1 c.denom ++ ofText 2 c.amount

def ofSend (m : Send) : List Field :=
  ofText 1 m.sender ++ ofText 2 m.receiver ++ m.amount.map fun c => ofRecord 3 (ofCoinText c)

def ofAddressCoins (a : AddressCoins) : List Field :=
  ofText 1 a.address ++ a.coins.map fun c => ofRecord 2 (ofCoinText c)

def ofMultiSend (m : MultiSend) : List Field :=
  m.inputs.map (fun a => ofRecord 1 (ofAddressCoins a)) ++
    m.outputs.map fun a => ofRecord 2 (ofAddressCoins a)

def ofWithdrawReward (m : WithdrawReward) : List Field :=
  ofText 1 m.delegator ++ ofText 2 m.validator

def ofWithdrawCommission (m : WithdrawCommission) : List Field :=
  ofText 1 m.validator

end Wire

namespace Json

def coinText? (j : Json) : Option CoinText := do
  let f ← j.fields ["denom", "amount"]
  let denom ← f.getD "denom" "" text
  let amount ← f.getD "amount" "" text
  return { denom, amount }

def send? (j : Json) : Option Send := do
  let f ← j.fields ["from_address", "to_address", "amount"]
  let sender ← f.getD "from_address" "" text
  let receiver ← f.getD "to_address" "" text
  let amount ← f.getD "amount" [] (list coinText?)
  return { sender, receiver, amount }

def addressCoins? (j : Json) : Option AddressCoins := do
  let f ← j.fields ["address", "coins"]
  let address ← f.getD "address" "" text
  let coins ← f.getD "coins" [] (list coinText?)
  return { address, coins }

def multiSend? (j : Json) : Option MultiSend := do
  let f ← j.fields ["inputs", "outputs"]
  let inputs ← f.getD "inputs" [] (list addressCoins?)
  let outputs ← f.getD "outputs" [] (list addressCoins?)
  return { inputs, outputs }

def withdrawReward? (j : Json) : Option WithdrawReward := do
  let f ← j.fields ["delegator_address", "validator_address"]
  let delegator ← f.getD "delegator_address" "" text
  let validator ← f.getD "validator_address" "" text
  return { delegator, validator }

def withdrawCommission? (j : Json) : Option WithdrawCommission := do
  let f ← j.fields ["validator_address"]
  let validator ← f.getD "validator_address" "" text
  return { validator }

end Json

/-- Reads a payload in either of its forms. -/
def Payload.read? (wire : Nat → List Wire.Field → Option α) (json : Json → Option α) :
    Payload → Option α
  | .raw bytes => Wire.message? wire bytes
  | .json value => json value

end ChainIndex
