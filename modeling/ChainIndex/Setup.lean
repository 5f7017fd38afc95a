/-
Setting up a run: the handlers are registered, the message types are made known
to the decoder and the filters are read, each of which may be refused.
-/
import ChainIndex.Process

namespace ChainIndex

inductive SetupError where
  | config (cause : ConfigError)
  | hrp (cause : AddressError)
  | eventHandlers (cause : EventHandlerError)
  | messageHandlers (cause : MessageHandlerError)
  | filters (cause : ConfigError)

def SetupError.message : SetupError → String
  | config cause => "invalid configuration: " ++ cause.message
  | hrp cause => "invalid account prefix: " ++ cause.message
  | eventHandlers cause => "failed to register event handlers: " ++ cause.message
  | messageHandlers cause => "failed to register message handlers: " ++ cause.message
  | filters cause => "failed to load filter file: " ++ cause.message

namespace Processor

/-- The registry that some registrations leave, if all of them are accepted. -/
def registered (registrations : List (ExceptT ε (StateM ρ) Unit)) (empty : ρ) : Except ε ρ :=
  match (registrations.forM id).run.run empty with
  | (.ok (), registry) => .ok registry
  | (.error e, _) => .error e

/-- A processor with the given handlers, and with the filters of a text. -/
def assemble (config : Config) (decoder : Decoder) (events : List EventRegistration)
    (messages : List MessageRegistration) (filterText : Option String) :
    Except SetupError Processor := do
  let eventHandlers ← (registered events .empty).mapError .eventHandlers
  let messageHandlers ← (registered messages []).mapError .messageHandlers
  let filters ← match filterText with
    | some text => (Filters.parse text).mapError .filters
    | none => .ok .none
  return { config, decoder, eventHandlers, messageHandlers, filters }

/-- The processor of a configuration, with all handlers of this library. -/
def ofConfig (config : Config) (filterText : Option String) : Except SetupError Processor := do
  let book ← (AddressBook.ofHrp config.chain.accountHrp).mapError .hrp
  let decoder : Decoder := { book, messageTypes := [] }
  let epochs := config.indexer.epochIdentifier.toList.map EventRegistry.registerEpochSet
  assemble config decoder.registerSdkTypes (EventRegistry.registerGenericSet :: epochs)
    [MessageRegistry.registerGenericSet] filterText

end Processor

end ChainIndex
