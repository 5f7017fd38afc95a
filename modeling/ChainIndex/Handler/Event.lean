/-
Handlers of block events. A handler reads an event and gives the amounts that
it finds, or refuses it. The handlers of an event type are tried in order, and
an event that all of them refuse fails its whole block; events that have no
handler are passed over. Handlers of an epoch form a registry of their own.
-/
import ChainIndex.Block.Events
import ChainIndex.Handler.Basic
import ChainIndex.Task
import ChainIndex.Tx.Basic

namespace ChainIndex

inductive EventHandlerError where
  | missingAttribute (eventType key : String)
  | invalidAttribute (eventType reason : String)
  | exhausted (eventType : String) (height : Int)
  | registration (cause : RegistrationError)
  deriving DecidableEq

def EventHandlerError.message : EventHandlerError → String
  | missingAttribute eventType key => "Event " ++ eventType ++ " is missing attribute " ++ key
  | invalidAttribute eventType reason =>
    "Event " ++ eventType ++ " has an invalid attribute: " ++ reason
  | exhausted eventType height => s!"All handlers failed for event {eventType} at height {height}"
  | registration (.duplicate id) => "Handler " ++ id ++ " is already registered"
  | registration (.typeMismatch id registered handles) =>
    "Handler " ++ id ++ " handles " ++ handles ++ " events but was registered for " ++ registered

/-- What reads events of one type; `read` also gets the type under which the
event is handed over. -/
structure EventHandler where
  eventType : String
  read : String → Event → Except EventHandlerError (List EventData)

namespace EventHandler

/-- The value of an attribute that must be there and not be empty. -/
def required (eventType : String) (e : Event) (key : String) : Except EventHandlerError String :=
  match (e.attribute? key).filter (!·.isEmpty) with
  | some value => .ok value
  | none => .error (.missingAttribute eventType key)

/-- One entry for each coin, with the whole part of its amount. -/
def entries (address : String) (source : EventSource) (coins : List Coin) : List EventData :=
  coins.map fun coin =>
    { address, amount := coin.amount.truncate, denom := coin.denom, source }

def readAddressAmount (eventType addressKey : String) (source : EventSource) (given : String)
    (e : Event) : Except EventHandlerError (List EventData) :=
  if given ≠ eventType then .error (.invalidAttribute given ("handler expects " ++ eventType))
  else do
    let address ← required eventType e addressKey
    let coins ← (Coin.parseList (e.attributeD "amount")).mapError fun cause =>
      .invalidAttribute given (DecodeError.ofCoin cause).message
    return entries address source coins

/-- Reads an address out of one attribute and a coin list out of `amount`; a
missing amount is no coins. -/
def addressAmount (eventType addressKey : String) (source : EventSource) : EventHandler :=
  { eventType, read := readAddressAmount eventType addressKey source }

def coinReceived : EventHandler :=
  addressAmount "coin_received" "receiver" .coinReceived

def validatorRewards : EventHandler :=
  addressAmount "rewards" "validator" .validatorRewards

def validatorCommission : EventHandler :=
  addressAmount "commission" "validator" .validatorCommission

def epochDistribution : EventHandler :=
  addressAmount "distribution" "receiver" .epochRewardDistribution

end EventHandler

/-- The handlers of a position and an event type. -/
abbrev EventHandlers := HandlerTable (BlockPosition × String) EventHandler

namespace EventHandlers

/-- Registers a handler. One that is refused still leaves a list under its key, an
empty one where there was none. -/
def register (position : BlockPosition) (eventType : String) (h : Registered EventHandler) :
    Call EventHandlers EventHandlerError Unit := do
  let hs := HandlerTable.get (← get) (position, eventType)
  modify (HandlerTable.set (position, eventType) hs)
  match h.insert EventHandler.eventType eventType hs with
  | .ok hs => modify (HandlerTable.set (position, eventType) hs)
  | .error e => throw (.registration e)

/-- The data of the first handler that accepts the event. -/
def dispatchEvent (t : EventHandlers) (height : Int) (position : BlockPosition) (e : Event) :
    Except EventHandlerError (List EventData) :=
  match HandlerTable.get t (position, e.eventType) with
  | [] => .ok []
  | hs =>
    match Registered.firstOk? (fun h => h.read e.eventType e) hs with
    | some data => .ok data
    | none => .error (.exhausted e.eventType height)

/-- The data of all events of a block, in order. -/
def dispatch (t : EventHandlers) (height : Int) (es : BlockEvents) :
    Except EventHandlerError (List EventData) := do
  let data ← es.placed.mapM fun (position, e) => dispatchEvent t height position e
  return data.flatten

end EventHandlers

/-- Handlers for all blocks, and handlers for the first block of an epoch. -/
structure EventRegistry where
  always : EventHandlers
  epochs : List (String × EventHandlers)

/-- A registration, which may fail and leaves a registry in either case. -/
abbrev EventRegistration := Call EventRegistry EventHandlerError Unit

namespace EventRegistry

def empty : EventRegistry := ⟨[], []⟩

/-- Registers a handler for all blocks. -/
def register (isGeneric : Bool) (position : BlockPosition) (eventType id : String)
    (handler : EventHandler) : EventRegistration :=
  (EventHandlers.register position eventType { id, isGeneric, handler }).onPart (·.always)
    fun always registry => { registry with always }

def epochHandlers (registry : EventRegistry) (epoch : String) : EventHandlers :=
  (registry.epochs.lookup epoch).getD []

def hasEpoch (registry : EventRegistry) (epoch : String) : Bool :=
  registry.epochs.any (·.1 == epoch)

def setEpoch (epoch : String) (t : EventHandlers) (registry : EventRegistry) : EventRegistry :=
  { registry with epochs := (epoch, t) :: registry.epochs.filter (·.1 != epoch) }

/-- Registers a handler for an epoch. A registration that fails still makes the
epoch known. -/
def registerEpoch (epoch : String) (position : BlockPosition) (eventType id : String)
    (handler : EventHandler) : EventRegistration :=
  (EventHandlers.register position eventType { id, isGeneric := false, handler }).onPart
    (·.epochHandlers epoch) (setEpoch epoch)

/-- The handlers that suit every chain. -/
def registerGenericSet : EventRegistration := do
  register true .beginBlock "coin_received" "generic-coin-received" .coinReceived
  register true .endBlock "coin_received" "generic-coin-received" .coinReceived
  register true .beginBlock "rewards" "generic-validator-rewards" .validatorRewards
  register true .beginBlock "commission" "generic-validator-commission" .validatorCommission

/-- The handlers of reward distributions at the start of an epoch. -/
def registerEpochSet (epoch : String) : EventRegistration :=
  registerEpoch epoch .beginBlock "distribution" "epoch-reward-distribution" .epochDistribution

def ids (registry : EventRegistry) (position : BlockPosition) (eventType : String) : List String :=
  HandlerTable.ids registry.always (position, eventType)

def dispatch (registry : EventRegistry) (height : Int) (es : BlockEvents) :
    Except EventHandlerError (List EventData) :=
  registry.always.dispatch height es

def dispatchEpoch (registry : EventRegistry) (epoch : String) (height : Int) (es : BlockEvents) :
    Except EventHandlerError (List EventData) :=
  (registry.epochHandlers epoch).dispatch height es

end EventRegistry

end ChainIndex
