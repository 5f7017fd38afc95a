/-
Why a transaction cannot be decoded or brought into the index's form.
-/
import ChainIndex.Address
import ChainIndex.Coin

namespace ChainIndex

inductive DecodeError where
  | malformedEnvelope
  | invalidEnvelope (reason : String)
  | invalidBody (reason : String)
  | invalidAuthInfo (reason : String)
  | unknownMessageType (typeUrl : String)
  | unsupportedExtension (typeUrl : String)
  | invalidLogs (reason : String)
  | invalidCoins (reason : String)
  | address (cause : AddressError)
  deriving DecidableEq

namespace DecodeError

def malformed : String := "malformed protobuf message"

def message : DecodeError → String
  | malformedEnvelope => "Invalid tx envelope: " ++ malformed
  | invalidEnvelope reason => "Invalid tx envelope: " ++ reason
  | invalidBody reason => "Invalid tx body: " ++ reason
  | invalidAuthInfo reason => "Invalid auth info: " ++ reason
  | unknownMessageType typeUrl => "Unknown message type: " ++ typeUrl
  | unsupportedExtension typeUrl => "Unsupported extension option: " ++ typeUrl
  | invalidLogs reason => "Logs could not be parsed: " ++ reason
  | invalidCoins reason => "Invalid coins: " ++ reason
  | address cause => "Address error: " ++ cause.message

/-- The messages of the errors behind an error. -/
def causes : DecodeError → List String
  | address cause => [cause.message]
  | _ => []

def ofCoin (e : CoinError) : DecodeError := .invalidCoins e.message

end DecodeError

end ChainIndex
