/-
Handlers and registrations described in JSON: the handlers of this library by
their names, and stand-ins that accept everything or nothing and always find
the same.
-/
import ChainIndex.Handler.Event
import ChainIndex.Handler.Message
import ChainIndex.Record.Tx

namespace ChainIndex

namespace EventHandler

def standIn (j : Json) : EventHandler :=
  { eventType := j.textAt "event_type"
    read := fun given _ =>
      if j.flagD "accept" true then .ok ((j.itemsAt "data").map EventData.ofRecord)
      else .error (.invalidAttribute given "rejected") }

def ofRecord (j : Json) : EventHandler :=
  match j.textAt "kind" with
  | "coin_received" => .coinReceived
  | "validator_rewards" => .validatorRewards
  | "validator_commission" => .validatorCommission
  | "epoch_distribution" => .epochDistribution
  | "address_amount" => .addressAmount (j.textAt "event_type") (j.textAt "address_key")
      ((EventSource.ofName? (j.textAt "source")).getD .coinReceived)
  | _ => standIn j

end EventHandler

namespace MessageHandler

def standIn (j : Json) : MessageHandler :=
  { typeUrl := j.textAt "type_url"
    read := fun m =>
      if j.flagD "accept" true then
        .ok [{ messageIndex := m.index, typeUrl := m.typeUrl, sender := j.textAt "tag",
               receiver := "", amount := .one, denom := "utest" }]
      else .error (.invalidPayload m.typeUrl "rejected") }

def ofRecord (j : Json) : MessageHandler :=
  match j.textAt "kind" with
  | "send" => .send
  | "multi_send" => .multiSend
  | "withdraw_reward" => .withdrawReward
  | "withdraw_commission" => .withdrawCommission
  | _ => standIn j

end MessageHandler

def EventRegistration.ofRecord (j : Json) : EventRegistration :=
  let position := BlockPosition.ofName (j.textAt "position")
  let eventType := j.textAt "event_type"
  let id := j.textAt "id"
  let handler := EventHandler.ofRecord (j.member "handler")
  match j.textAt "as" with
  | "chain" => EventRegistry.register false position eventType id handler
  | "epoch" => EventRegistry.registerEpoch (j.textAt "epoch") position eventType id handler
  | "generic_set" => EventRegistry.registerGenericSet
  | "epoch_set" => EventRegistry.registerEpochSet (j.textAt "epoch")
  | _ => EventRegistry.register true position eventType id handler

def MessageRegistration.ofRecord (j : Json) : MessageRegistration :=
  let handler := MessageHandler.ofRecord (j.member "handler")
  match j.textAt "as" with
  | "generic_set" => MessageRegistry.registerGenericSet
  | "chain" => MessageRegistry.register false (j.textAt "type_url") (j.textAt "id") handler
  | _ => MessageRegistry.register true (j.textAt "type_url") (j.textAt "id") handler

end ChainIndex
