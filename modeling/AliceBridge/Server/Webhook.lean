import AliceBridge.Lib.Gateway
import AliceBridge.Lib.JsonText
import AliceBridge.Protocol.Request
import AliceBridge.Server.Routes

/-! # The webhook route

`routes.rs`: a POST to the route is answered by the route itself or handed on to the
backend, whose reply is put into the envelope of the reply. Each backend has a door of its
own; what comes before both is `entry`. A panic of the envelope would be no response. -/
namespace AliceBridge.Server.Webhook
open AliceBridge.Lib.Utf8 AliceBridge.Lib.Json AliceBridge.Lib.JsonText
open AliceBridge.Lib.Gateway AliceBridge.Protocol.Request AliceBridge.Protocol.Response
open AliceBridge.Core.HouseEngine AliceBridge.Server.Routes

def greeting : Text := "Привет! Я мост к нейросетям. Задай любой вопрос или скажи: помощь.".toList
def refusal : Text := "Извини, это семейный навык. Я отвечаю только своим.".toList

/-- A POST: the secret of its path, and its body if it is JSON. -/
structure HttpRequest where
  secret : Text
  body : Option Value

/-- `rejected` is what the `Json` extractor answers for a body it does not read. -/
inductive HttpResponse where
  | rejected
  | notFound
  | ok (body : WebhookResponse)
deriving DecidableEq

def HttpRequest.read (request : HttpRequest) : Option WebhookRequest :=
  request.body.bind WebhookRequest.read

/-- The extractors come first, the secret second. -/
def entry (webhookSecret : Text) (request : HttpRequest) : Except HttpResponse WebhookRequest :=
  match request.read with
  | none => .error .rejected
  | some body => if request.secret ≠ webhookSecret then .error .notFound else .ok body

/-- Who speaks to the legacy engine: the account, or the device without one. -/
def speaker (body : WebhookRequest) : Text :=
  (body.session.user.map AccountUser.userId).getD body.session.application.applicationId

/-- What the legacy engine is called with: a speaker and an utterance. -/
def legacyInput (body : WebhookRequest) : Text × Text :=
  (speaker body, trim body.request.originalUtterance)

def legacyDoor (webhookSecret : Text) (allowedUserIds : List Text) :
    Door HttpRequest (Text × Text) Text (Option HttpResponse) where
  accept request :=
    match entry webhookSecret request with
    | .error response => .error (some response)
    | .ok body =>
      if !allowedUserIds.isEmpty && !allowedUserIds.contains (speaker body) then
        .error ((WebhookResponse.sayAndClose refusal).map .ok)
      else if body.session.new && (trim body.request.originalUtterance).isEmpty then
        .error ((WebhookResponse.say greeting).map .ok)
      else .ok (legacyInput body)
  respond reply := (WebhookResponse.say reply).map .ok

def householdInput (body : WebhookRequest) (user : AccountUser) : HouseholdInput where
  identity := ⟨user.userId, body.session.application.applicationId⟩
  utterance := trim body.request.originalUtterance
  newSession := body.session.new

def householdDoor (webhookSecret : Text) :
    Door HttpRequest HouseholdInput HouseholdReply (Option HttpResponse) where
  accept request :=
    match entry webhookSecret request with
    | .error response => .error (some response)
    | .ok body =>
      match body.session.user with
      | none => .error ((WebhookResponse.sayAndClose householdRefusal).map .ok)
      | some user => .ok (householdInput body user)
  respond reply := (householdResponse reply).map .ok

theorem entry_ok {webhookSecret : Text} {request : HttpRequest} {body : WebhookRequest} :
    entry webhookSecret request = .ok body ↔
      request.read = some body ∧ request.secret = webhookSecret := by
  unfold entry
  split
  next hread => simp [hread]
  next body' hread =>
    by_cases hsecret : request.secret = webhookSecret <;> simp [hread, hsecret]

theorem entry_error {webhookSecret : Text} {request : HttpRequest} {answer : HttpResponse}
    (h : entry webhookSecret request = .error answer) :
    request.read = none ∧ answer = .rejected ∨
      ∃ body, request.read = some body ∧ request.secret ≠ webhookSecret ∧ answer = .notFound := by
  unfold entry at h
  split at h
  next hread =>
    obtain rfl := Except.error.inj h
    exact .inl ⟨hread, rfl⟩
  next body hread =>
    split at h
    next hsecret =>
      obtain rfl := Except.error.inj h
      exact .inr ⟨body, hread, hsecret, rfl⟩
    next => cases h

/-- A POST as the service of the dialogues sends it. -/
def postOf (secret userId applicationId utterance : Text) (newSession : Bool) : HttpRequest where
  secret := secret
  body := some (.object
    [("version".toList, .string ['1']),
      ("meta".toList, .object [("locale".toList, .string []), ("timezone".toList, .string [])]),
      ("session".toList, .object
        [("message_id".toList, .number (.posInt 0)), ("session_id".toList, .string []),
          ("skill_id".toList, .string []), ("new".toList, .bool newSession),
          ("user".toList, .object [("user_id".toList, .string userId)]),
          ("application".toList, .object [("application_id".toList, .string applicationId)])]),
      ("request".toList, .object
        [("type".toList, .string "SimpleUtterance".toList),
          ("original_utterance".toList, .string utterance)])])

/-! ## The envelope -/

/-- Spoken as it is shown, and within the limit. -/
structure Envelope (response : WebhookResponse) : Prop where
  spoken : response.response.tts = some response.response.text
  short : response.response.text.length ≤ maxTextLen

theorem build_envelope (text : Text) (endSession : Bool) : ∃ response,
    WebhookResponse.build text endSession = some response ∧ Envelope response := by
  have hclip : ∃ clipped, clipToLimit text = some clipped ∧ clipped.length ≤ maxTextLen := by
    by_cases hshort : text.length ≤ maxTextLen
    · exact ⟨text, clipToLimit_short hshort, hshort⟩
    · obtain ⟨clipped, hclip, hclipped⟩ := clipToLimit_long (Nat.not_le.mp hshort)
      exact ⟨clipped, hclip, hclipped.spec.1.trans (List.length_take_le ..)⟩
  obtain ⟨clipped, hclip, hlimit⟩ := hclip
  exact ⟨_, by rw [WebhookResponse.build, hclip]; rfl, rfl, hlimit⟩

theorem say_envelope (text : Text) : ∃ response,
    WebhookResponse.say text = some response ∧ Envelope response :=
  build_envelope text false

theorem sayAndClose_envelope (text : Text) : ∃ response,
    WebhookResponse.sayAndClose text = some response ∧ Envelope response :=
  build_envelope text true

theorem Envelope.of_ok {said body : WebhookResponse} (h : Envelope said)
    (heq : HttpResponse.ok said = .ok body) : Envelope body :=
  HttpResponse.ok.inj heq ▸ h

theorem householdResponse_envelope (reply : HouseholdReply) : ∃ response,
    householdResponse reply = some response ∧ Envelope response := by
  cases reply with
  | say text => exact say_envelope text
  | refuse => exact sayAndClose_envelope householdRefusal
  | pairing code => exact say_envelope _
  | busy => exact say_envelope householdBusy
  | internalError => exact say_envelope phraseInternalError

/-- The JSON of a reply, its fields in the order of the structs. -/
def SkillResponse.toJson (response : SkillResponse) : Value :=
  .object (("text".toList, .string response.text) ::
    (response.tts.map fun tts => ("tts".toList, Value.string tts)).toList ++
      [("end_session".toList, .bool response.endSession)])

def WebhookResponse.toJson (response : WebhookResponse) : Value :=
  .object [("response".toList, SkillResponse.toJson response.response),
    ("version".toList, .string response.version)]

/-- What a reader of the reply finds. -/
structure ReadsAs (value : Value) (response : WebhookResponse) : Prop where
  text : (value.pointer ["response".toList, "text".toList]).bind Value.asStr =
    some response.response.text
  tts : (value.pointer ["response".toList, "tts".toList]).bind Value.asStr = response.response.tts
  endSession : (value.pointer ["response".toList, "end_session".toList]).bind Value.asBool =
    some response.response.endSession
  version : (value.get "version".toList).bind Value.asStr = some response.version

theorem numbers_toJson (response : WebhookResponse) :
    Numbers CanonicalNumber (WebhookResponse.toJson response) := by
  cases htts : response.response.tts <;>
    simp [WebhookResponse.toJson, SkillResponse.toJson, htts, Numbers, NumbersFields]

/-- The fields in the order of their names. -/
theorem normal_toJson (response : WebhookResponse) :
    normal (WebhookResponse.toJson response) = .object
      [("response".toList, .object (("end_session".toList, .bool response.response.endSession) ::
          ("text".toList, .string response.response.text) ::
          (response.response.tts.map fun tts => ("tts".toList, Value.string tts)).toList)),
        ("version".toList, .string response.version)] := by
  cases htts : response.response.tts with
  | none =>
    simp only [WebhookResponse.toJson, SkillResponse.toJson, htts, normal]
    rfl
  | some tts =>
    simp only [WebhookResponse.toJson, SkillResponse.toJson, htts, normal]
    rfl

theorem nesting_toJson (response : WebhookResponse) :
    nesting (WebhookResponse.toJson response) ≤ maxNesting := by
  cases htts : response.response.tts <;>
    simp [WebhookResponse.toJson, SkillResponse.toJson, htts, nesting, nestingFields, maxNesting]

/-- The text of a reply is read as the reply. -/
theorem response_read_back (floats : Floats) (response : WebhookResponse) :
    ∃ value, parse floats (print floats (WebhookResponse.toJson response)) = some value ∧
      ReadsAs value response := by
  have hparse := @parse_print floats _ (numbers_toJson response) []
    (by simp)
  rw [List.append_nil, if_pos (nesting_toJson response), normal_toJson] at hparse
  refine ⟨_, hparse, ?_⟩
  constructor
  · rfl
  · cases response.response.tts <;> rfl
  · rfl
  · rfl

end AliceBridge.Server.Webhook
