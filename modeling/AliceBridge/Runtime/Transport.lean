import AliceBridge.Lib.Bytes
import AliceBridge.Lib.JsonSound
import AliceBridge.Runtime.Collector

/-! # Messages on the socket

The two transports of `client.rs`: a message a line of bytes, or a text frame of a
WebSocket. What either reads is the list of results the client works on, and what a
call of the client writes is read back by the same reader as the messages it meant,
whatever was said to the house and whatever the server sent. -/
namespace AliceBridge.Runtime.Transport
open AliceBridge.Lib.Utf8 AliceBridge.Lib.Bytes AliceBridge.Lib.Json AliceBridge.Lib.JsonText
open AliceBridge.Lib.Program AliceBridge.Core.Household
open AliceBridge.Runtime.Protocol AliceBridge.Runtime.Client AliceBridge.Runtime.Codex
open AliceBridge.Runtime.Wire AliceBridge.Runtime.Collector

/-- `MAX_JSONL_BYTES`. -/
def maxJsonlBytes : Nat := 1024 * 1024

section Transports
variable (floats : Floats)

/-- `serde_json::to_string`, which no value fails. -/
def jsonText (message : Value) : Text := print floats (normal message)

/-- `serde_json::from_str`. -/
def fromStr (text : Text) : Except CodexRuntimeError Value :=
  match parse floats text with
  | some message => .ok message
  | none => .error .invalidMessage

/-! ## Lines -/

/-- How the bytes end: the peer closes the connection, or reading fails. -/
inductive Ending where
  | closed
  | failed
deriving DecidableEq

/-- What `read_message` makes of the line that `read_line` appended to the string. -/
def decodeLine (line : Bytes) : Except CodexRuntimeError Value :=
  match decode line with
  | none => .error .transport
  | some text =>
    if line.length = 0 then .error .endOfStream
    else if line.length > maxJsonlBytes then .error .messageTooLarge
    else fromStr floats text

/-- `read_message` of `JsonlTransport`, and the bytes that are left. -/
def readLineMessage (ending : Ending) (bytes : Bytes) : Except CodexRuntimeError Value × Bytes :=
  let line := takeLine bytes
  if ending = .failed ∧ newline ∉ line.1 then (.error .transport, line.2)
  else (decodeLine floats line.1, line.2)

/-- The bytes `write_message` of `JsonlTransport` writes. -/
def encodeLine (message : Value) : Bytes := encode (jsonText floats message) ++ [newline]

/-- What the reads of a connection give, up to the first failure. -/
def lineMessages (ending : Ending) (bytes : Bytes) : Incoming :=
  match ending with
  | .closed => (lines bytes).map (decodeLine floats)
  | .failed =>
    ((lines bytes).filter fun line => decide (newline ∈ line)).map (decodeLine floats) ++
      [.error .transport]

/-! ## Frames -/

/-- A message of the socket; `raw` is `Message::Frame`. -/
inductive Frame where
  | text (text : Text)
  | binary (payload : Bytes)
  | ping (payload : Bytes)
  | pong (payload : Bytes)
  | close
  | raw
deriving DecidableEq

/-- What the socket yields: a message or an error of its own. -/
abbrev Yield := Except Unit Frame

/-- `read_message` of `WebSocketTransport`: its result, what the socket has still to
yield, and what was sent so far. A send may fail, whatever went before. -/
def readFrameMessage (fails : List Frame → Bool) :
    List Yield → List Frame → Except CodexRuntimeError Value × List Yield × List Frame
  | [], sent => (.error .endOfStream, [], sent)
  | .error _ :: rest, sent => (.error .transport, rest, sent)
  | .ok (.text text) :: rest, sent =>
    if byteLen text > maxJsonlBytes then (.error .messageTooLarge, rest, sent)
    else (fromStr floats text, rest, sent)
  | .ok (.ping payload) :: rest, sent =>
    if fails sent then (.error .transport, rest, sent)
    else readFrameMessage fails rest (sent ++ [.pong payload])
  | .ok (.pong _) :: rest, sent => readFrameMessage fails rest sent
  | .ok .close :: rest, sent => (.error .endOfStream, rest, sent)
  | .ok (.binary _) :: rest, sent => (.error .invalidMessage, rest, sent)
  | .ok .raw :: rest, sent => (.error .invalidMessage, rest, sent)

/-- `write_message` of `WebSocketTransport` up to the send. -/
def encodeFrame (message : Value) : Except CodexRuntimeError Frame :=
  let encoded := jsonText floats message
  if byteLen encoded > maxJsonlBytes then .error .messageTooLarge else .ok (.text encoded)

/-- What one yield is to the reader; pings and pongs are nothing. -/
def frameResult : Yield → Option (Except CodexRuntimeError Value)
  | .error _ => some (.error .transport)
  | .ok (.text text) =>
    some (if byteLen text > maxJsonlBytes then .error .messageTooLarge else fromStr floats text)
  | .ok (.ping _) | .ok (.pong _) => none
  | .ok .close => some (.error .endOfStream)
  | .ok (.binary _) | .ok .raw => some (.error .invalidMessage)

/-- The answers to the pings among the yields. -/
def pongs (yields : List Yield) : List Frame :=
  yields.filterMap fun yield => match yield with
    | .ok (.ping payload) => some (.pong payload)
    | _ => none

/-- What the reads of a socket give, up to the first failure. -/
def frameMessages (yields : List Yield) : Incoming := yields.filterMap (frameResult floats)

/-- The writes of the client on a socket, of which any may fail. -/
def socketTransport (fails : List Event → Bool) : Transport := fun log message =>
  match encodeFrame floats message with
  | .error error => some error
  | .ok _ => if fails log then some .transport else none

end Transports

/-! ## The reads of a connection -/

/-- A read gives the next of the results, or the end of the stream when there is none. -/
inductive Gives : Incoming → Except CodexRuntimeError Value → Incoming → Prop
  | ended {later : Incoming} : Gives [] (.error .endOfStream) later
  | message {message : Value} {rest : Incoming} :
      Gives (.ok message :: rest) (.ok message) rest
  | failed {error : CodexRuntimeError} {rest later : Incoming} :
      Gives (.error error :: rest) (.error error) later

/-- The results of up to `n` reads; after a failure nothing is read. -/
def readUpTo {σ : Type} (read : σ → Except CodexRuntimeError Value × σ) : Nat → σ → Incoming
  | 0, _ => []
  | n + 1, s =>
    match read s with
    | (.ok message, s') => .ok message :: readUpTo read n s'
    | (.error error, _) => [.error error]

/-- The results up to the first failure. -/
def finished : Incoming → Incoming
  | [] => [.error .endOfStream]
  | .error error :: _ => [.error error]
  | .ok message :: rest => .ok message :: finished rest

/-- One read after the other gives the results one after the other. -/
theorem readUpTo_finished {σ : Type} {read : σ → Except CodexRuntimeError Value × σ}
    {messages : σ → Incoming} (h : ∀ s, Gives (messages s) (read s).1 (messages (read s).2))
    (n : Nat) (s : σ) : readUpTo read n s = (finished (messages s)).take n := by
  induction n generalizing s with
  | zero => rfl
  | succ n ih =>
    have hs := h s
    rw [readUpTo]
    generalize read s = result at hs ⊢
    obtain ⟨result, s'⟩ := result
    generalize hm : messages s = incoming at hs ⊢
    generalize hm' : messages s' = later at hs
    cases hs with
    | ended => simp [finished]
    | message => simp [finished, ih s', hm']
    | failed => simp [finished]

section Reads
variable {floats : Floats}

theorem readLineMessage_gives (ending : Ending) (bytes : Bytes) :
    Gives (lineMessages floats ending bytes) (readLineMessage floats ending bytes).1
      (lineMessages floats ending (readLineMessage floats ending bytes).2) := by
  have hgives : ∀ result : Except CodexRuntimeError Value, ∀ rest : Incoming,
      Gives (result :: rest) result rest := by
    intro result rest
    cases result with
    | error error => exact .failed
    | ok message => exact .message
  by_cases hnil : bytes = []
  · subst hnil
    cases ending with
    | closed => exact .ended
    | failed => exact .failed
  have hlines := lines_takeLine hnil
  cases ending with
  | closed =>
    simp only [lineMessages, hlines, List.map_cons]
    exact hgives _ _
  | failed =>
    by_cases hmem : newline ∈ (takeLine bytes).1
    · simp only [lineMessages, hlines, readLineMessage, hmem, List.filter_cons, decide_true,
        if_true, not_true_eq_false, and_false, if_false, List.map_cons, List.cons_append]
      exact hgives _ _
    · have hrest : (takeLine bytes).2 = [] := by rw [takeLine_last hmem]
      simp only [lineMessages, hlines, readLineMessage, hmem, hrest, lines, List.filter_cons,
        decide_false, not_false_eq_true, and_self, if_true, List.filter_nil, List.map_nil,
        List.nil_append]
      exact .failed

/-- The reads of a byte stream are the results the client works on. -/
theorem lines_reads (ending : Ending) (bytes : Bytes) (n : Nat) :
    readUpTo (readLineMessage floats ending) n bytes =
      (finished (lineMessages floats ending bytes)).take n :=
  readUpTo_finished (readLineMessage_gives ending) n bytes

/-- A read of frames gives the next of the results, and answers the pings it passes. -/
theorem readFrameMessage_gives (yields : List Yield) (sent : List Frame) :
    Gives (frameMessages floats yields)
        (readFrameMessage floats (fun _ => false) yields sent).1
        (frameMessages floats (readFrameMessage floats (fun _ => false) yields sent).2.1) ∧
      ∃ passed, (readFrameMessage floats (fun _ => false) yields sent).2.2 =
          sent ++ pongs passed ∧
        yields = passed ++ (readFrameMessage floats (fun _ => false) yields sent).2.1 := by
  induction yields generalizing sent with
  | nil => exact ⟨.ended, [], by simp [readFrameMessage, pongs], rfl⟩
  | cons yield rest ih =>
    rcases yield with _ | frame
    · exact ⟨.failed, [.error ()], by simp [readFrameMessage, pongs], rfl⟩
    cases frame with
    | text text =>
      by_cases hlong : byteLen text > maxJsonlBytes
      · refine ⟨?_, [.ok (.text text)], ?_, ?_⟩
        · simp only [frameMessages, List.filterMap_cons, frameResult, readFrameMessage, hlong,
            if_true]
          exact .failed
        · simp [readFrameMessage, hlong, pongs]
        · simp [readFrameMessage, hlong]
      · refine ⟨?_, [.ok (.text text)], ?_, ?_⟩
        · simp only [frameMessages, List.filterMap_cons, frameResult, readFrameMessage, hlong,
            if_false]
          cases fromStr floats text with
          | error error => exact .failed
          | ok message => exact .message
        · simp [readFrameMessage, hlong, pongs]
        · simp [readFrameMessage, hlong]
    | ping payload =>
      obtain ⟨hgives, passed, hsent, hsplit⟩ := ih (sent ++ [.pong payload])
      refine ⟨hgives, .ok (.ping payload) :: passed, ?_, ?_⟩
      · simpa [readFrameMessage, pongs] using hsent
      · exact congrArg (Except.ok (Frame.ping payload) :: ·) hsplit
    | pong payload =>
      obtain ⟨hgives, passed, hsent, hsplit⟩ := ih sent
      refine ⟨hgives, .ok (.pong payload) :: passed, ?_, ?_⟩
      · simpa [readFrameMessage, pongs] using hsent
      · exact congrArg (Except.ok (Frame.pong payload) :: ·) hsplit
    | close => exact ⟨.failed, [.ok .close], by simp [readFrameMessage, pongs], rfl⟩
    | binary payload =>
      exact ⟨.failed, [.ok (.binary payload)], by simp [readFrameMessage, pongs], rfl⟩
    | raw => exact ⟨.failed, [.ok .raw], by simp [readFrameMessage, pongs], rfl⟩

/-- The reads of a socket whose sends succeed are the results the client works on. -/
theorem frames_reads (yields : List Yield) (sent : List Frame) (n : Nat) :
    readUpTo (fun s : List Yield × List Frame =>
        readFrameMessage floats (fun _ => false) s.1 s.2) n (yields, sent) =
      (finished (frameMessages floats yields)).take n :=
  @readUpTo_finished _ _ (fun s => frameMessages floats s.1)
    (fun s => (readFrameMessage_gives s.1 s.2).1) n (yields, sent)

/-! ## What was written is read -/

/-- A message the printer allows and the parser of the peer does not find too deep. -/
structure Plain (message : Value) : Prop where
  numbers : Numbers CanonicalNumber message
  depth : nesting message ≤ maxNesting

theorem Plain.parse {message : Value} (h : Plain message) {blanks : Text}
    (hblanks : ∀ c ∈ blanks, isBlank c = true) :
    parse floats (jsonText floats message ++ blanks) = some (normal message) := by
  have hcanonical := canonical_normal message h.numbers
  rw [jsonText, parse_print (numbers_of_canonical _ hcanonical) hblanks,
    if_pos ((nesting_normal message).trans h.depth), normal_of_canonical _ hcanonical]

theorem Plain.fromStr {message : Value} (h : Plain message) :
    fromStr floats (jsonText floats message) = .ok (normal message) := by
  have hparse := @Plain.parse floats message h [] (by simp)
  rw [List.append_nil] at hparse
  rw [Transport.fromStr, hparse]

/-- The text of a message stays on its line. -/
theorem newline_not_mem_encode {message : Value} (h : Numbers CanonicalNumber message) :
    newline ∉ encode (jsonText floats message) := by
  have hnewline : ('\n' : Char) ∉ jsonText floats message := by
    intro hmem
    have hprintable := @print_printable floats _ (canonical_normal message h) _ hmem
    exact absurd hprintable (by decide)
  rwa [mem_encode_ascii (c := '\n') (by decide) (by decide)]

/-- What the peer reads of a line: the message, unless the line is too long. -/
def lineReadBack (floats : Floats) (message : Value) : Except CodexRuntimeError Value :=
  if (encodeLine floats message).length > maxJsonlBytes then .error .messageTooLarge
  else .ok (normal message)

theorem Plain.decodeLine {message : Value} (h : Plain message) :
    decodeLine floats (encodeLine floats message) = lineReadBack floats message := by
  have hencode : encodeLine floats message = encode (jsonText floats message ++ ['\n']) := by
    rw [encode_append]
    rfl
  have hblank : ∀ c ∈ ['\n'], isBlank c = true := by
    intro c hc
    rw [List.mem_singleton.mp hc]
    rfl
  have hparse := @Plain.parse floats message h ['\n'] hblank
  have hpos : (encodeLine floats message).length ≠ 0 := by
    simp only [encodeLine, List.length_append, List.length_singleton]
    omega
  have hdecode : decode (encodeLine floats message) = some (jsonText floats message ++ ['\n']) := by
    rw [hencode, decode_encode]
  simp only [Transport.decodeLine, lineReadBack, hdecode, if_neg hpos, Transport.fromStr, hparse]

/-- The lines of messages are read as the messages, one by one, whatever follows them. -/
theorem lineMessages_encode {messages : List Value} (h : ∀ message ∈ messages, Plain message)
    (ending : Ending) (torn : Bytes) :
    lineMessages floats ending (messages.flatMap (encodeLine floats) ++ torn) =
      messages.map (lineReadBack floats) ++ lineMessages floats ending torn := by
  have hlines : lines (messages.flatMap (encodeLine floats) ++ torn) =
      messages.map (encodeLine floats) ++ lines torn := by
    have hall := @lines_flatMap (messages.map fun m => encode (jsonText floats m)) (by
      intro text htext
      obtain ⟨message, hmessage, rfl⟩ := List.mem_map.mp htext
      exact newline_not_mem_encode (h message hmessage).numbers) torn
    rwa [List.flatMap_map, List.map_map] at hall
  have hread : (messages.map (encodeLine floats)).map (decodeLine floats) =
      messages.map (lineReadBack floats) := by
    rw [List.map_map]
    exact List.map_congr_left fun message hmessage => (h message hmessage).decodeLine
  cases ending with
  | closed => rw [lineMessages, hlines, List.map_append, hread, lineMessages]
  | failed =>
    have hwhole : ((messages.map (encodeLine floats)).filter fun line =>
        decide (newline ∈ line)) = messages.map (encodeLine floats) := by
      refine List.filter_eq_self.mpr fun line hline => ?_
      obtain ⟨message, _, rfl⟩ := List.mem_map.mp hline
      simp [encodeLine]
    rw [lineMessages, hlines, List.filter_append, hwhole, List.map_append, hread, lineMessages,
      List.append_assoc]

/-- The frames of messages, among any pings and pongs, are read as the messages. -/
theorem frameMessages_encode {messages : List Value} (h : ∀ message ∈ messages, Plain message)
    (hshort : ∀ message ∈ messages, byteLen (jsonText floats message) ≤ maxJsonlBytes)
    {yields : List Yield}
    (hyields : (yields.filter fun yield => (frameResult floats yield).isSome) =
      messages.map fun message => .ok (.text (jsonText floats message))) :
    frameMessages floats yields = messages.map fun message => .ok (normal message) := by
  have hfilter : frameMessages floats yields =
      (yields.filter fun yield => (frameResult floats yield).isSome).filterMap
        (frameResult floats) := by
    rw [frameMessages, List.filterMap_filter]
    refine List.filterMap_congr fun yield _ => ?_
    cases frameResult floats yield <;> rfl
  rw [hfilter, hyields, List.filterMap_map]
  clear hyields hfilter
  induction messages with
  | nil => rfl
  | cons message messages ih =>
    obtain ⟨hplain, hplains⟩ := List.forall_mem_cons.mp h
    obtain ⟨hle, hles⟩ := List.forall_mem_cons.mp hshort
    have hresult : frameResult floats (.ok (.text (jsonText floats message))) =
        some (.ok (normal message)) := by
      rw [frameResult, if_neg (Nat.not_lt.mpr hle), hplain.fromStr]
    rw [List.filterMap_cons_some (b := .ok (normal message)) (by exact hresult),
      ih hplains hles, List.map_cons]

end Reads

/-! ## What a call writes -/

/-- The id of a server request can be sent back. -/
def Echoable (message : Value) : Prop :=
  isServerRequest message = true → ∀ id, idOf message = some id →
    Numbers CanonicalNumber id ∧ nesting id < maxNesting

/-- A client whose ids are below a bound and that has only such requests to answer. -/
structure Sane (bound : Nat) (client : JsonRpcClient) : Prop where
  nextId : client.nextId ≤ bound
  incoming : ∀ message, .ok message ∈ client.incoming → Echoable message
  notifications : ∀ message ∈ client.notifications, Echoable message

/-- What is written is plain, and the transport took it. -/
def Writes (transport : Transport) (_ : Bool) (es : List Event) : Prop :=
  ∀ message, .wrote message ∈ es → Plain message ∧ ∃ log, transport log message = none

/-- Programs that write plain messages only. -/
abbrev Says (transport : Transport) (bound bound' : Nat) {α : Type} (m : Rpc α) : Prop :=
  EmitsTo JsonRpcClient.log (Sane bound) (Sane bound') (Writes transport) m

theorem composes_says {transport : Transport} : Composes (Writes transport) where
  nil := by simp [Writes]
  append := by
    intro ok es es' h h' message hmessage
    rcases List.mem_append.mp hmessage with hmessage | hmessage
    · exact h message hmessage
    · exact h' message hmessage

theorem Sane.mono {bound bound' : Nat} (hle : bound ≤ bound') :
    ∀ client, Sane bound client → Sane bound' client :=
  fun _ h => { h with nextId := h.nextId.trans hle }

section Messages

theorem plain_request {id : Nat} {method : Text} {params : Value} (hid : id ≤ u64Max)
    (hnumbers : Numbers CanonicalNumber params) (hnesting : nesting params < maxNesting) :
    Plain (requestMessage id method params) where
  numbers := ⟨hid, trivial, hnumbers, trivial⟩
  depth := by
    simp only [requestMessage, Value.ofNat, nesting, nestingFields]
    omega

theorem plain_notification (method : Text) : Plain (notificationMessage method) where
  numbers := ⟨trivial, trivial⟩
  depth := by simp [notificationMessage, nesting, nestingFields, maxNesting]

theorem plain_decline {id : Value} (hnumbers : Numbers CanonicalNumber id)
    (hnesting : nesting id < maxNesting) : Plain (declineMessage id) where
  numbers := ⟨hnumbers, ⟨trivial, trivial⟩, trivial⟩
  depth := by
    simp only [declineMessage, nesting, nestingFields, maxNesting] at hnesting ⊢
    omega

theorem plain_reject {id : Value} (hnumbers : Numbers CanonicalNumber id)
    (hnesting : nesting id < maxNesting) : Plain (rejectMessage id) where
  numbers := ⟨hnumbers, ⟨⟨by decide, by decide⟩, trivial, trivial⟩, trivial⟩
  depth := by
    simp only [rejectMessage, nesting, nestingFields, maxNesting] at hnesting ⊢
    omega

end Messages

section Calls
variable {transport : Transport} {bound : Nat}

theorem says_write {message : Value} (h : Plain message) :
    Says transport bound bound (writeMessage transport message) := by
  intro c r c' hI hruns
  rw [writeMessage, Runs.get_bind] at hruns
  cases htaken : transport c.log message with
  | some error =>
    simp only [htaken] at hruns
    obtain ⟨-, rfl⟩ := Runs.throw_iff.mp hruns
    exact ⟨hI, [], by simp, by simp [Writes]⟩
  | none =>
    simp only [htaken] at hruns
    obtain ⟨-, rfl⟩ := Runs.modify_iff.mp hruns
    refine ⟨{ hI with }, [.wrote message], rfl, fun m hm => ?_⟩
    obtain rfl := Event.wrote.inj (List.mem_singleton.mp hm)
    exact ⟨h, c.log, htaken⟩

theorem says_throw {α : Type} (error : CodexRuntimeError) :
    Says transport bound bound (throw error : Rpc α) :=
  Emits.throw composes_says error

/-- A server request is answered with its own id. -/
theorem says_serve {message : Value} (h : Echoable message)
    (hrequest : isServerRequest message = true) :
    Says transport bound bound (handleServerRequest transport message) := by
  unfold handleServerRequest
  split
  · exact says_throw _
  next id hid =>
    obtain ⟨hnumbers, hnesting⟩ := h hrequest id hid
    split
    · exact says_throw _
    · split
      · exact says_write (plain_decline hnumbers hnesting)
      · exact EmitsTo.bind composes_says (fun _ h => h)
          (says_write (plain_reject hnumbers hnesting)) fun _ => says_throw _

theorem says_check {α : Type} (result : Except CodexRuntimeError α) :
    Says transport bound bound (check result) := by
  intro c r c' hI hruns
  obtain ⟨-, rfl⟩ := check_runs hruns
  exact ⟨hI, [], by simp, by simp [Writes]⟩

/-- The client after a change of its state that writes nothing. -/
theorem says_modify {f : JsonRpcClient → JsonRpcClient}
    (h : ∀ c, Sane bound c → Sane bound (f c) ∧
      ∃ es, (f c).log = c.log ++ es ∧ Writes transport true es) :
    Says transport bound bound (modify f : Rpc PUnit) := by
  intro c r c' hI hruns
  obtain ⟨-, rfl⟩ := Runs.modify_iff.mp hruns
  exact h c hI

theorem says_await {id : Nat} {reads : Incoming}
    (hreads : ∀ message, .ok message ∈ reads → Echoable message) :
    Says transport bound bound (awaitResponse transport id reads) := by
  induction reads with
  | nil => exact says_throw _
  | cons result rest ih =>
    have hrest : ∀ message, .ok message ∈ rest → Echoable message :=
      fun message h => hreads message (List.mem_cons_of_mem _ h)
    cases result with
    | error error =>
      refine EmitsTo.bind composes_says (fun _ h => h) (says_modify ?_)
        fun _ => says_throw _
      exact fun c hI => ⟨{ hI with incoming := hrest }, [], by simp, by simp [Writes]⟩
    | ok message =>
      have hmessage : Echoable message := hreads message List.mem_cons_self
      refine EmitsTo.bind composes_says (fun _ h => h) (says_modify ?_)
        fun _ => ?_
      · exact fun c hI => ⟨{ hI with incoming := hrest }, [.read message], rfl, by simp [Writes]⟩
      · split
        next hmethod =>
          split
          next hid =>
            refine EmitsTo.bind composes_says (fun _ h => h) (says_serve hmessage ?_)
              fun _ => ih hrest
            rw [isServerRequest, hmethod, hid]
            rfl
          next hid =>
            refine EmitsTo.bind composes_says (fun _ h => h) (says_modify ?_)
              fun _ => ih hrest
            refine fun c hI => ⟨{ hI with notifications := ?_ }, [], by simp, by simp [Writes]⟩
            intro m hm
            rcases List.mem_append.mp hm with hm | hm
            · exact hI.notifications m hm
            · rw [List.mem_singleton.mp hm]
              exact hmessage
        next => exact says_check _

theorem says_request {method : Text} {params : Value} (hbound : bound ≤ u64Max)
    (hnumbers : Numbers CanonicalNumber params) (hnesting : nesting params < maxNesting) :
    Says transport bound (bound + 1) (request transport method params) := by
  intro c r c' hI hruns
  rw [request, Runs.get_bind, Runs.modify_bind] at hruns
  have hI' : Sane (bound + 1) { c with nextId := c.nextId + 1 } :=
    { hI with nextId := Nat.succ_le_succ hI.nextId }
  have hplain := @plain_request _ method _ (hI.nextId.trans hbound) hnumbers hnesting
  have hsays : Says transport (bound + 1) (bound + 1) (writeMessage transport
      (requestMessage c.nextId method params) >>= fun _ =>
        awaitResponse transport c.nextId c.incoming) :=
    EmitsTo.bind composes_says (fun _ h => h) (says_write hplain) fun _ => says_await hI.incoming
  have hwritten := hsays _ r c' hI' hruns
  exact hwritten

/-- The message a source gives. -/
def sourceMessage : Source → Option Value
  | .buffered message | .live (.ok message) => some message
  | .live (.error _) => none

theorem sourceMessage_cases {source : Source} {message : Value}
    (h : sourceMessage source = some message) :
    source = .buffered message ∨ source = .live (.ok message) := by
  rcases source with m | _ | m
  · exact .inl (congrArg _ (Option.some.inj h))
  · cases h
  · exact .inr (congrArg (Source.live ∘ Except.ok) (Option.some.inj h))

theorem takeSource_message {source : Source} {c c' : JsonRpcClient} {message : Value}
    (h : Runs (takeSource source) c (.ok message) c') : sourceMessage source = some message := by
  rcases source with m | error | m
  all_goals rw [takeSource, Runs.modify_bind] at h
  · obtain ⟨heq, -⟩ := Runs.pure_iff.mp h
    exact congrArg some (Except.ok.inj heq).symm
  · obtain ⟨heq, -⟩ := Runs.throw_iff.mp h
    cases heq
  · obtain ⟨heq, -⟩ := Runs.pure_iff.mp h
    exact congrArg some (Except.ok.inj heq).symm

theorem says_take {source : Source} : Says transport bound bound (takeSource source) := by
  have htail : ∀ c, Sane bound c → ∀ message, .ok message ∈ c.incoming.tail → Echoable message :=
    fun c hI message h => hI.incoming message (List.mem_of_mem_tail h)
  rcases source with m | error | m
  · refine EmitsTo.bind composes_says (fun _ h => h) (says_modify ?_)
      fun _ => Emits.pure composes_says m
    refine fun c hI => ⟨{ hI with notifications := ?_ }, [], by simp, by simp [Writes]⟩
    exact fun message h => hI.notifications message (List.mem_of_mem_tail h)
  · refine EmitsTo.bind composes_says (fun _ h => h) (says_modify ?_)
      fun _ => says_throw error
    exact fun c hI => ⟨{ hI with incoming := htail c hI }, [], by simp, by simp [Writes]⟩
  · refine EmitsTo.bind composes_says (fun _ h => h) (says_modify ?_)
      fun _ => Emits.pure composes_says m
    exact fun c hI =>
      ⟨{ hI with incoming := htail c hI }, [.read m], rfl, by simp [Writes]⟩

theorem says_collectMessage {threadId turnId : Text} {connector : Option Text}
    {collected : Collected} {message : Value} (h : Echoable message) :
    Says transport bound bound
      (collectMessage transport threadId turnId connector collected message) := by
  unfold collectMessage
  split
  next hrequest =>
    exact EmitsTo.bind composes_says (fun _ h => h) (says_serve h hrequest)
      fun _ => Emits.pure composes_says _
  next => exact says_check _

theorem says_collectLoop {threadId turnId : Text} {connector : Option Text}
    {sources : List Source}
    (hbuffered : ∀ message, .buffered message ∈ sources → Echoable message)
    (hlive : ∀ message, .live (.ok message) ∈ sources → Echoable message)
    (collected : Collected) :
    Says transport bound bound
      (collectLoop transport threadId turnId connector sources collected) := by
  induction sources generalizing collected with
  | nil => exact says_throw _
  | cons source rest ih =>
    have ih := ih (fun message h => hbuffered message (List.mem_cons_of_mem _ h))
      fun message h => hlive message (List.mem_cons_of_mem _ h)
    have hsource : ∀ message, sourceMessage source = some message → Echoable message := by
      intro message hmessage
      rcases sourceMessage_cases hmessage with rfl | rfl
      · exact hbuffered message List.mem_cons_self
      · exact hlive message List.mem_cons_self
    refine EmitsTo.bind_of composes_says (fun _ h => h) says_take takeSource_message
      fun message hmessage => ?_
    refine EmitsTo.bind composes_says (fun _ h => h) (says_modify ?_) fun _ => ?_
    · exact fun c hI => ⟨{ hI with }, [.consumed message], rfl, by simp [Writes]⟩
    refine EmitsTo.bind composes_says (fun _ h => h)
      (says_collectMessage (hsource message hmessage)) fun progress => ?_
    cases progress with
    | more collected => exact ih collected
    | done text => exact Emits.pure composes_says text

theorem says_collectTurn {threadId turnId : Text} {connector : Option Text} :
    Says transport bound bound (collectTurn transport threadId turnId connector) := by
  intro c r c' hI hruns
  rw [collectTurn, Runs.get_bind] at hruns
  refine says_collectLoop (fun message h => ?_) (fun message h => ?_) _ c r c' hI hruns
  · rcases List.mem_append.mp h with h | h
    · obtain ⟨m, hm, heq⟩ := List.mem_map.mp h
      obtain rfl := Source.buffered.inj heq
      exact hI.notifications m hm
    · obtain ⟨_, _, heq⟩ := List.mem_map.mp h
      cases heq
  · rcases List.mem_append.mp h with h | h
    · obtain ⟨_, _, heq⟩ := List.mem_map.mp h
      cases heq
    · obtain ⟨result, hresult, heq⟩ := List.mem_map.mp h
      obtain rfl := Source.live.inj heq
      exact hI.incoming message hresult

theorem says_initialized (hbound : bound ≤ u64Max) :
    Says transport bound (bound + 1) (initializeClient transport) := by
  refine EmitsTo.bind composes_says (fun _ h => h) (says_request hbound ?_ ?_)
    fun _ => says_write (plain_notification _)
  · simp [initializeParams, Numbers, NumbersFields]
  · simp [initializeParams, nesting, nestingFields, maxNesting]

theorem config_plain (connector : Option Text) :
    Numbers CanonicalNumber (isolatedHouseConfig connector) ∧
      nesting (isolatedHouseConfig connector) ≤ 3 := by
  cases connector <;>
    simp [isolatedHouseConfig, Numbers, NumbersFields, nesting, nestingFields]

/-- A call of the runtime on a connection of its own. -/
inductive HouseCall where
  | startThread (instructions : Text)
  | turn (threadId utterance : Text)

def HouseCall.run (runtime : CodexRuntime) (transport : Transport) (house : HouseContext) :
    HouseCall → Rpc Text
  | .startThread instructions => runtime.startThreadWith transport house instructions
  | .turn threadId utterance => runtime.turnWith transport house threadId utterance

theorem says_call (runtime : CodexRuntime) (house : HouseContext) (call : HouseCall)
    (hbound : bound + 3 ≤ u64Max) :
    Says transport bound (bound + 3) (call.run runtime transport house) := by
  cases call with
  | startThread instructions =>
    show Says transport bound (bound + 3) (runtime.startThreadWith transport house instructions)
    unfold CodexRuntime.startThreadWith
    split
    · exact (says_throw _).mono (Sane.mono (by omega))
    · refine EmitsTo.bind composes_says (Sane.mono (by omega)) (says_check _) fun connector => ?_
      refine EmitsTo.bind composes_says (Sane.mono (by omega)) (says_initialized (by omega))
        fun _ => ?_
      obtain ⟨hnumbers, hnesting⟩ := config_plain connector
      refine EmitsTo.bind composes_says (Sane.mono (by omega)) (says_request (by omega) ?_ ?_)
        fun result => ?_
      · simp [threadStartParams, Numbers, NumbersFields, hnumbers]
      · simp only [threadStartParams, nesting, nestingFields, maxNesting]
        omega
      · exact EmitsTo.bind composes_says (Sane.mono (by omega)) (says_check _)
          fun _ => (says_check _).mono (Sane.mono (by omega))
  | turn threadId utterance =>
    show Says transport bound (bound + 3) (runtime.turnWith transport house threadId utterance)
    unfold CodexRuntime.turnWith
    split
    · exact (says_throw _).mono (Sane.mono (by omega))
    split
    · exact (says_throw _).mono (Sane.mono (by omega))
    · refine EmitsTo.bind composes_says (Sane.mono (by omega)) (says_check _) fun connector => ?_
      refine EmitsTo.bind composes_says (Sane.mono (by omega)) (says_initialized (by omega))
        fun _ => ?_
      obtain ⟨hnumbers, hnesting⟩ := config_plain connector
      refine EmitsTo.bind composes_says (Sane.mono (by omega)) (says_request (by omega) ?_ ?_)
        fun resumed => ?_
      · simp [threadResumeParams, Numbers, NumbersFields, hnumbers]
      · simp only [threadResumeParams, nesting, nestingFields, maxNesting]
        omega
      refine EmitsTo.bind composes_says (Sane.mono (by omega)) (says_check _) fun _ => ?_
      refine EmitsTo.bind composes_says (Sane.mono (by omega)) (says_check _) fun resumedId => ?_
      split
      · exact (says_throw _).mono (Sane.mono (by omega))
      · refine EmitsTo.bind composes_says (Sane.mono (by omega)) (says_request (by omega) ?_ ?_)
          fun started => ?_
        · simp [turnStartParams, Numbers, NumbersFields, NumbersItems]
        · simp [turnStartParams, nesting, nestingFields, nestingItems, maxNesting]
        exact EmitsTo.bind composes_says (fun _ h => h) (says_check _) fun _ => says_collectTurn

end Calls

/-! ## Both directions -/

/-- No id of a server request holds a float. -/
def IdsFloatFree (incoming : Incoming) : Prop :=
  ∀ message, .ok message ∈ incoming → isServerRequest message = true →
    ∀ id, idOf message = some id → FloatFree id

theorem mem_written {log : List Event} {message : Value} :
    message ∈ written log ↔ .wrote message ∈ log := by
  simp only [written, List.mem_filterMap]
  constructor
  · rintro ⟨event, hevent, h⟩
    cases event with
    | wrote m =>
      obtain rfl := Option.some.inj h
      exact hevent
    | read | consumed => cases h
  · exact fun h => ⟨_, h, rfl⟩

/-- A parsed id can be sent back when it holds no float: it is one level down. -/
theorem Echoable.of_parsed {message : Value} (h : Parsed maxNesting message)
    (hfree : isServerRequest message = true → ∀ id, idOf message = some id → FloatFree id) :
    Echoable message := by
  intro hrequest id hid
  have hid' := hid
  unfold idOf Value.get at hid'
  split at hid'
  next fields =>
    obtain ⟨field, hfind, rfl⟩ := Option.map_eq_some_iff.mp hid'
    have hmem := List.mem_of_find?_eq_some hfind
    have hstored := numbersFields_iff.mp h.numbers field hmem
    have hnesting := nestingFields_le.mp (Nat.le_refl (nestingFields fields)) field hmem
    have hdepth : nestingFields fields + 1 ≤ maxNesting := h.nesting
    exact ⟨(hfree hrequest _ hid).canonical hstored, by omega⟩
  · cases hid'

section Sessions
variable {floats : Floats}

theorem fromStr_ok {text : Text} {message : Value} (h : fromStr floats text = .ok message) :
    Parsed maxNesting message := by
  unfold fromStr at h
  split at h
  next hparse =>
    obtain rfl := Except.ok.inj h
    exact parse_parsed hparse
  · cases h

theorem lineMessages_parsed {ending : Ending} {bytes : Bytes} {message : Value}
    (h : .ok message ∈ lineMessages floats ending bytes) : Parsed maxNesting message := by
  obtain ⟨line, hline⟩ : ∃ line, decodeLine floats line = .ok message := by
    cases ending with
    | closed =>
      obtain ⟨line, _, heq⟩ := List.mem_map.mp h
      exact ⟨line, heq⟩
    | failed =>
      rcases List.mem_append.mp h with h | h
      · obtain ⟨line, _, heq⟩ := List.mem_map.mp h
        exact ⟨line, heq⟩
      · cases List.mem_singleton.mp h
  unfold decodeLine at hline
  split at hline
  · cases hline
  · split at hline
    · cases hline
    · split at hline
      · cases hline
      · exact fromStr_ok hline

theorem frameMessages_parsed {yields : List Yield} {message : Value}
    (h : .ok message ∈ frameMessages floats yields) : Parsed maxNesting message := by
  obtain ⟨yield, _, heq⟩ := List.mem_filterMap.mp h
  rcases yield with _ | frame
  · cases Option.some.inj heq
  · cases frame with
    | text text =>
      have hresult := Option.some.inj heq
      split at hresult
      · cases hresult
      · exact fromStr_ok hresult
    | ping | pong => cases heq
    | close | binary | raw => cases Option.some.inj heq

/-- What a call writes on a new connection. -/
theorem call_writes {incoming : Incoming}
    (hparsed : ∀ message, .ok message ∈ incoming → Parsed maxNesting message)
    (hids : IdsFloatFree incoming) (runtime : CodexRuntime) (transport : Transport)
    (house : HouseContext) (call : HouseCall) :
    ∀ message ∈ written (outcome (call.run runtime transport house) incoming).2.log,
      Plain message ∧ ∃ log, transport log message = none := by
  have hsane : Sane 1 (.connect incoming) :=
    { nextId := Nat.le_refl _
      incoming := fun message h => .of_parsed (hparsed message h) (hids message h)
      notifications := fun message h => by cases h }
  obtain ⟨-, es, hlog, hes⟩ :=
    says_call runtime house call (by decide) _ _ _ hsane
      (outcome_runs (call.run runtime transport house) incoming)
  intro message hmessage
  have hlog' : (outcome (call.run runtime transport house) incoming).2.log = es := hlog
  rw [mem_written, hlog'] at hmessage
  exact hes message hmessage

/-- Whatever is said to the house and whatever bytes come from the server, the bytes a
call writes are read back line by line as the messages it meant, but for the lines that
are too long for a reader. What a failing write leaves behind them (`torn`) is read after
them, and then the peer's connection ends. -/
theorem lines_read_back (floats : Floats) (runtime : CodexRuntime) (transport : Transport)
    (house : HouseContext) (call : HouseCall) (ending peer : Ending) (bytes torn : Bytes)
    (hids : IdsFloatFree (lineMessages floats ending bytes)) :
    let messages := written (outcome (call.run runtime transport house)
      (lineMessages floats ending bytes)).2.log
    let sent := messages.flatMap (encodeLine floats) ++ torn
    let received := messages.map (lineReadBack floats) ++ lineMessages floats peer torn
    lineMessages floats peer sent = received ∧
      ∀ n, readUpTo (readLineMessage floats peer) n sent = (finished received).take n := by
  intro messages sent received
  have hlines : lineMessages floats peer sent = received :=
    lineMessages_encode (fun message hmessage =>
      (call_writes (fun _ h => lineMessages_parsed h) hids runtime transport house call message
        hmessage).1) peer torn
  exact ⟨hlines, fun n => hlines ▸ lines_reads peer _ n⟩

/-- A server that asks for an approval and closes the connection. -/
def approvalRequest : Value :=
  .object [("id".toList, .ofNat 7),
    ("method".toList, .string "item/fileChange/requestApproval".toList)]

def bridgeRuntime : CodexRuntime := ⟨⟨['/', 's'], ['/', 'c'], ['h'], false⟩, rfl, rfl, rfl⟩

theorem approvalRequest_plain : Plain approvalRequest where
  numbers := ⟨show 7 ≤ u64Max by decide, trivial, trivial⟩
  depth := by simp [approvalRequest, nesting, nestingFields, Value.ofNat, maxNesting]

theorem approvalRequest_ids : IdsFloatFree [.ok (normal approvalRequest)] := by
  intro message hmessage _ id hid
  obtain rfl := Except.ok.inj (List.mem_singleton.mp hmessage)
  have hid' : some (Value.ofNat 7) = some id := hid
  obtain rfl := Option.some.inj hid'
  simp [FloatFree, Numbers, Value.ofNat]

theorem lines_read_back_approval :
    lineMessages noFloats .closed ([requestMessage 1 initializeMethod initializeParams,
        declineMessage (.ofNat 7)].flatMap (encodeLine noFloats) ++ encode ['{']) =
      [requestMessage 1 initializeMethod initializeParams, declineMessage (.ofNat 7)].map
        (lineReadBack noFloats) ++ lineMessages noFloats .closed (encode ['{']) := by
  have hread : lineMessages noFloats .closed (encodeLine noFloats approvalRequest) =
      [.ok (normal approvalRequest)] := by
    have hlines := @lineMessages_encode noFloats [approvalRequest]
      (by simpa using approvalRequest_plain) .closed []
    have hshort : (encodeLine noFloats approvalRequest).length ≤ maxJsonlBytes := by decide +kernel
    simpa [lineReadBack, Nat.not_lt.mpr hshort, lineMessages, lines] using hlines
  have hwritten : written (outcome ((HouseCall.startThread ['?']).run bridgeRuntime accepting
      ⟨1, ['h'], none, ['c']⟩) [.ok (normal approvalRequest)]).2.log =
        [requestMessage 1 initializeMethod initializeParams, declineMessage (.ofNat 7)] := rfl
  have hback := lines_read_back noFloats bridgeRuntime accepting ⟨1, ['h'], none, ['c']⟩
    (.startThread ['?']) .closed .closed (encodeLine noFloats approvalRequest) (encode ['{'])
    (hread ▸ approvalRequest_ids)
  simp only [hread, hwritten] at hback
  exact hback.1

/-- Over a WebSocket a message too long is not sent, and what is sent is read back whole,
with any pings and pongs in between and before whatever the connection ends with. -/
theorem frames_read_back (floats : Floats) (runtime : CodexRuntime) (fails : List Event → Bool)
    (house : HouseContext) (call : HouseCall) (yields : List Yield)
    (hids : IdsFloatFree (frameMessages floats yields)) :
    let messages := written (outcome (call.run runtime (socketTransport floats fails) house)
      (frameMessages floats yields)).2.log
    (∀ message ∈ messages, byteLen (jsonText floats message) ≤ maxJsonlBytes) ∧
    ∀ peer later : List Yield, (peer.filter fun yield => (frameResult floats yield).isSome) =
        messages.map (fun message => .ok (.text (jsonText floats message))) →
      let received := messages.map (fun message => .ok (normal message)) ++
        frameMessages floats later
      frameMessages floats (peer ++ later) = received ∧
        ∀ n sent, readUpTo (fun s : List Yield × List Frame =>
            readFrameMessage floats (fun _ => false) s.1 s.2) n (peer ++ later, sent) =
          (finished received).take n := by
  intro messages
  have hwrites := call_writes (fun _ h => frameMessages_parsed h) hids runtime
    (socketTransport floats fails) house call
  have hshort : ∀ message ∈ messages, byteLen (jsonText floats message) ≤ maxJsonlBytes := by
    intro message hmessage
    obtain ⟨-, log, htaken⟩ := hwrites message hmessage
    unfold socketTransport at htaken
    split at htaken
    · cases htaken
    next hencode =>
      unfold encodeFrame at hencode
      simp only at hencode
      split at hencode
      · cases hencode
      next hle => exact Nat.not_lt.mp hle
  refine ⟨hshort, fun peer later hpeer => ?_⟩
  have hframes : frameMessages floats (peer ++ later) =
      messages.map (fun message => .ok (normal message)) ++ frameMessages floats later := by
    rw [← frameMessages_encode (fun message h => (hwrites message h).1) hshort hpeer]
    exact List.filterMap_append
  exact ⟨hframes, fun n sent => hframes ▸ frames_reads (peer ++ later) sent n⟩

theorem frames_read_back_approval :
    ∃ messages : List Value, messages.length = 2 ∧
      frameMessages noFloats ([.ok (.text (jsonText noFloats
          (requestMessage 1 initializeMethod initializeParams))), .ok (.ping [1]),
          .ok (.text (jsonText noFloats (declineMessage (.ofNat 7))))] ++ [.ok .close]) =
        messages.map (fun message => .ok (normal message)) ++
          frameMessages noFloats [.ok .close] := by
  have hread : frameMessages noFloats [.ok (.text (jsonText noFloats approvalRequest))] =
      [.ok (normal approvalRequest)] := by
    have hshort : byteLen (jsonText noFloats approvalRequest) ≤ maxJsonlBytes := by decide +kernel
    simpa using @frameMessages_encode noFloats [approvalRequest]
      (by simpa using approvalRequest_plain) (by simpa using hshort)
      [.ok (.text (jsonText noFloats approvalRequest))] rfl
  have hback := frames_read_back noFloats bridgeRuntime (fun _ => false) ⟨1, ['h'], none, ['c']⟩
    (.startThread ['?']) [.ok (.text (jsonText noFloats approvalRequest))]
    (hread ▸ approvalRequest_ids)
  rw [hread] at hback
  have htexts : (written (outcome ((HouseCall.startThread ['?']).run bridgeRuntime
      (socketTransport noFloats fun _ => false) ⟨1, ['h'], none, ['c']⟩)
        [.ok (normal approvalRequest)]).2.log).map (jsonText noFloats) =
      [jsonText noFloats (requestMessage 1 initializeMethod initializeParams),
        jsonText noFloats (declineMessage (.ofNat 7))] := by decide +kernel
  refine ⟨_, by simpa using congrArg List.length htexts, (hback.2 _ [.ok .close] ?_).1⟩
  have hframes := congrArg (List.map fun text => (Except.ok (Frame.text text) : Yield)) htexts
  rw [List.map_map] at hframes
  exact hframes.symm

end Sessions

end AliceBridge.Runtime.Transport
