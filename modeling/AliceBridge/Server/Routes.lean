import AliceBridge.Core.HouseEngine
import AliceBridge.Protocol.Response

/-! # From engine replies to webhook replies -/
namespace AliceBridge.Server.Routes
open AliceBridge.Lib.Utf8 AliceBridge.Protocol.Response AliceBridge.Core.HouseEngine

def householdRefusal : Text := "Извините, эта Алиса не привязана к домашнему помощнику.".toList
def householdBusy : Text := "Я уже отвечаю в этом доме. Повторите через несколько секунд.".toList
def phraseInternalError : Text := "Ой, у меня что-то сломалось. Попробуй ещё раз.".toList

/-- `household_response`. -/
def householdResponse : HouseholdReply → Option WebhookResponse
  | .say text => WebhookResponse.say text
  | .refuse => WebhookResponse.sayAndClose householdRefusal
  | .pairing code =>
    WebhookResponse.say
      ("Код привязки: ".toList ++ code ++ ". Сообщите его владельцу.".toList)
  | .busy => WebhookResponse.say householdBusy
  | .internalError => WebhookResponse.say phraseInternalError

end AliceBridge.Server.Routes
