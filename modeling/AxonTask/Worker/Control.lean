import AxonTask.Lib.Machine
import AxonTask.Lib.Redis
import AxonTask.Shared.StreamWriter

/-!
# Control messages (`axontask-worker/src/control.rs`)

The listener of a task runs in the background.  It connects, subscribes to the channel
`ctrl:{task_id}`, and cancels the token of the task when it receives a cancel command.  A
command that is published before it has subscribed reaches nobody, and the sender does not
look at the number of receivers.
-/

namespace AxonTask

open Lib

/-- `ControlCommand`. -/
inductive ControlCommand
  | cancel
deriving DecidableEq, Repr

/-- `ControlMessage`. -/
structure ControlMessage where
  command : ControlCommand
  reason : Option String
deriving DecidableEq, Repr

/-- The derived `Serialize` of `ControlCommand`. -/
def ControlCommand.toJson : ControlCommand → JsonValue
  | .cancel => .string "cancel"

/-- The derived `Deserialize` of `ControlCommand`: a name, or an object with the name as its
only key and no content. -/
def ControlCommand.fromJson : JsonValue → Option ControlCommand
  | .string "cancel" => some .cancel
  | .object [("cancel", .null)] => some .cancel
  | _ => none

namespace ControlMessage

/-- `ControlMessage::cancel`. -/
def cancel (reason : Option String) : ControlMessage := ⟨.cancel, reason⟩

/-- The derived `Serialize`, which leaves out an absent reason. -/
def toJson (m : ControlMessage) : JsonValue :=
  .object <| ("command", m.command.toJson) :: (m.reason.map fun r => ("reason", .string r)).toList

/-- `Deserialize` of `Option<String>`; the outer `none` is an error. -/
def reasonFromJson : JsonValue → Option (Option String)
  | .null => some none
  | .string r => some (some r)
  | _ => none

/-- The derived `Deserialize`: unknown fields are ignored, a field that occurs twice is an
error, and an array stands for the fields in their order. -/
def fromJson : JsonValue → Option ControlMessage
  | .object fields =>
    match fields.filter fun f => f.1 = "command", fields.filter fun f => f.1 = "reason" with
    | [(_, c)], [] => (ControlCommand.fromJson c).map fun command => ⟨command, none⟩
    | [(_, c)], [(_, r)] => do
      let command ← ControlCommand.fromJson c
      let reason ← reasonFromJson r
      return ⟨command, reason⟩
    | _, _ => none
  | .array [c, r] => do
    let command ← ControlCommand.fromJson c
    let reason ← reasonFromJson r
    return ⟨command, reason⟩
  | _ => none

/-- A message is read as it was written. -/
lemma fromJson_toJson (m : ControlMessage) : fromJson m.toJson = some m := by
  obtain ⟨⟨⟩, reason⟩ := m
  cases reason <;> rfl

end ControlMessage

/-- `control_channel`. -/
def controlChannel (taskId : Uuid) : String := "ctrl:" ++ Uuid.display taskId

/-- How far the listener has come. -/
inductive ListenerPc
  | notStarted
  | spawned
  | connected
  /-- The head of the loop, which looks at the token. -/
  | checking
  /-- The `select!` of the loop. -/
  | waiting
  | stopped
deriving DecidableEq, Repr

/-- A claimed task with its token and its listener, and the server; the connection of a
listener has the name of its task.  The last two fields record the history. -/
structure Control where
  redis : Redis Uuid
  listener : ListenerPc
  token : Bool
  adapterReturned : Bool
  /-- The listener has subscribed to its channel. -/
  subscribed : Bool
  /-- A cancel command has been sent to the task. -/
  sent : Bool

/-- A step of the listener, of the worker, of the API, or of another client of Redis. -/
inductive ControlStep
  | other (op : RedisOp Uuid)
  /-- `ControlListener::send` of a cancel command. -/
  | send (reason : Option String)
  /-- `ControlListener::listen`. -/
  | listen
  | connect
  | subscribe
  /-- The connection or the subscription fails. -/
  | fail
  /-- The connection breaks.  The messages delivered to it before can still be received. -/
  | lose
  | check
  | receive
  /-- A second has passed. -/
  | tick
  /-- There will be no more messages. -/
  | streamEnds
  /-- The enforcer or a shutdown cancels the token. -/
  | cancel
  | adapterReturns
  /-- `control_handle.abort()`. -/
  | abort

/-- The steps of the listener itself, and the steps of the worker that do not cancel the
token. -/
def ControlStep.isQuiet : ControlStep → Bool
  | other _ | send _ | cancel => false
  | _ => true

namespace Control

variable (L : Libs) (P : Parsers) (taskId : Uuid)

/-- What `listen_loop` makes of a payload. -/
def decode (payload : String) : Option ControlMessage :=
  (P.serdeFromStr payload).bind ControlMessage.fromJson

/-- The loop takes the payload for a cancel command. -/
def isCancel (payload : String) : Bool :=
  (decode P payload).any fun m => decide (m.command = .cancel)

/-- The listener stops, and its connection is dropped. -/
def stop (s : Control) : Control :=
  { s with listener := .stopped, redis := s.redis.close taskId }

/-- A step of the listener, of the worker, of the API, or of another client of Redis. -/
def step (s : Control) : ControlStep → Option Control
  | .other op =>
    if op.connection = some taskId then none else some { s with redis := s.redis.apply op }
  | .send reason =>
    if s.adapterReturned then none
    else
      match L.serdeToString (ControlMessage.cancel reason).toJson with
      | some payload =>
        some { s with redis := s.redis.publish (controlChannel taskId) payload, sent := true }
      | none => some s
  | .listen =>
    match s.listener with
    | .notStarted => some { s with listener := .spawned }
    | _ => none
  | .connect =>
    match s.listener with
    | .spawned => some { s with listener := .connected }
    | _ => none
  | .subscribe =>
    match s.listener with
    | .connected =>
      some
        { s with
          listener := .checking
          redis := s.redis.subscribe taskId (controlChannel taskId)
          subscribed := true }
    | _ => none
  | .fail =>
    match s.listener with
    | .spawned | .connected => some (stop taskId s)
    | _ => none
  | .lose => some { s with redis := s.redis.close taskId }
  | .check =>
    match s.listener with
    | .checking => if s.token then some (stop taskId s) else some { s with listener := .waiting }
    | _ => none
  | .receive =>
    match s.listener with
    | .waiting =>
      match s.redis.receive taskId with
      | some (payload, redis) =>
        if isCancel P payload then some (stop taskId { s with redis, token := true })
        else some { s with redis, listener := .checking }
      | none => none
    | _ => none
  | .tick =>
    match s.listener with
    | .waiting => some { s with listener := .checking }
    | _ => none
  | .streamEnds =>
    match s.listener with
    | .waiting =>
      if s.redis.subscribers taskId = {} then some (stop taskId s) else none
    | _ => none
  | .cancel => some { s with token := true }
  | .adapterReturns =>
    if s.listener = .notStarted then none else some { s with adapterReturned := true }
  | .abort => if s.adapterReturned then some (stop taskId s) else none

/-- The task has just been claimed. -/
structure Begins (s : Control) : Prop where
  connection : s.redis.subscribers taskId = {}
  listener : s.listener = .notStarted
  token : s.token = false
  adapterReturned : s.adapterReturned = false
  subscribed : s.subscribed = false
  sent : s.sent = false

/-- The control messages of one task. -/
def machine : Machine Control ControlStep where
  Init := Begins taskId
  step := step L P taskId

/-- The messages that the listener has still to consume. -/
def inbox (s : Control) : List String := (s.redis.subscribers taskId).inbox

/-- When a cancel command was sent, and the listener has subscribed and has consumed all
messages delivered to it, the token is cancelled. -/
def NoCancelLost (s : Control) : Prop :=
  s.sent = true → s.subscribed = true → inbox taskId s = [] → s.token = true

/-- The token is cancelled, or a cancel command waits for the listener. -/
def arrives (s : Control) : Bool := s.token || (inbox taskId s).any (isCancel P)

/-- The listener is subscribed now. -/
def present (s : Control) : Bool :=
  (s.redis.subscribers taskId).channels.contains (controlChannel taskId)

/-- A cancel command is sent only while the listener is subscribed, or when the token is
cancelled anyway. -/
def Present (s : Control) : ControlStep → Prop
  | .send _ => (present taskId s || arrives P taskId s) = true
  | _ => True

instance (s : Control) : ∀ a, Decidable (Present P taskId s a)
  | .send _ => inferInstanceAs (Decidable (_ = true))
  | .other _ | .listen | .connect | .subscribe | .fail | .lose | .check | .receive | .tick
  | .streamEnds | .cancel | .adapterReturns | .abort => isTrue trivial

/-- `serde_json` reads the cancel commands that it prints. -/
def RoundTrips (L : Libs) (P : Parsers) : Prop :=
  ∀ reason, ∃ payload, L.serdeToString (ControlMessage.cancel reason).toJson = some payload ∧
    P.serdeFromStr payload = some (ControlMessage.cancel reason).toJson

variable {L P taskId} {s s' : Control}

lemma isCancel_of_roundTrips (h : RoundTrips L P) (reason : Option String) :
    ∃ payload, L.serdeToString (ControlMessage.cancel reason).toJson = some payload ∧
      isCancel P payload = true := by
  obtain ⟨payload, hprint, hread⟩ := h reason
  refine ⟨payload, hprint, ?_⟩
  simp [isCancel, decode, hread, ControlMessage.fromJson_toJson, ControlMessage.cancel]

@[simp] lemma inbox_stop : inbox taskId (stop taskId s) = inbox taskId s := by
  simp [inbox, stop]

@[simp] lemma arrives_stop : arrives P taskId (stop taskId s) = arrives P taskId s := by
  simp [arrives, stop, inbox]

/-! ### What a step does to the cancel commands on their way -/

/-- The listener neither loses nor makes up a cancel command. -/
lemma arrives_of_isQuiet {a : ControlStep} (ha : a.isQuiet = true)
    (h : step L P taskId s a = some s') :
    arrives P taskId s' = arrives P taskId s ∧ s'.sent = s.sent := by
  cases a with
  | other | send | cancel => cases ha
  | lose =>
    cases h
    simp [arrives, inbox]
  | subscribe =>
    simp only [step] at h
    split at h
    · cases h
      simp [arrives, inbox]
    · cases h
  | receive =>
    simp only [step] at h
    split at h
    · split at h
      · rename_i payload redis heq
        obtain ⟨hinbox, -⟩ := Redis.receive_eq_some heq
        split at h <;> rename_i hcancel <;> cases h
        · -- the command has cancelled the token
          simp [arrives, stop, inbox, hinbox, hcancel]
        · simp [arrives, inbox, hinbox, hcancel]
      · cases h
    · cases h
  | listen | connect | tick =>
    simp only [step] at h
    split at h
    · cases h
      exact ⟨rfl, rfl⟩
    · cases h
  | fail =>
    simp only [step] at h
    split at h <;> cases h <;> exact ⟨arrives_stop, rfl⟩
  | adapterReturns =>
    simp only [step] at h
    split at h
    · cases h
    · cases h
      exact ⟨rfl, rfl⟩
  | abort =>
    simp only [step] at h
    split at h
    · cases h
      exact ⟨arrives_stop, rfl⟩
    · cases h
  | check =>
    simp only [step] at h
    split at h
    · split at h <;> cases h
      · exact ⟨arrives_stop, rfl⟩
      · exact ⟨rfl, rfl⟩
    · cases h
  | streamEnds =>
    simp only [step] at h
    split at h
    · split at h
      · cases h
        exact ⟨arrives_stop, rfl⟩
      · cases h
    · cases h

/-- A message can only be added to the inbox by another client. -/
lemma arrives_of_subset {r : Redis Uuid} (hs : arrives P taskId s = true)
    (h : (s.redis.subscribers taskId).inbox ⊆ (r.subscribers taskId).inbox) :
    arrives P taskId { s with redis := r } = true := by
  simp only [arrives, inbox, Bool.or_eq_true, List.any_eq_true] at hs ⊢
  rcases hs with htok | ⟨payload, hmem, hcancel⟩
  · exact Or.inl htok
  · exact Or.inr ⟨payload, h hmem, hcancel⟩

/-- A cancel command that is sent arrives when the listener is subscribed. -/
lemma arrives_of_send (hcodec : RoundTrips L P) {reason : Option String}
    (h : step L P taskId s (.send reason) = some s') :
    s'.sent = true ∧ arrives P taskId s' = (present taskId s || arrives P taskId s) := by
  obtain ⟨payload, hprint, hcancel⟩ := isCancel_of_roundTrips hcodec reason
  simp only [step, hprint] at h
  split at h
  · cases h
  · cases h
    refine ⟨rfl, ?_⟩
    by_cases hmem : controlChannel taskId ∈ (s.redis.subscribers taskId).channels
    · simp [arrives, inbox, present, Subscriber.deliver_of_mem hmem, hmem, hcancel]
    · simp [arrives, inbox, present, Subscriber.deliver_of_not_mem hmem, hmem]

/-- **Step lemma.**  As long as the listener is there when a cancel command is sent, a command
that was sent has cancelled the token or waits for the listener. -/
lemma sent_arrives_step (hcodec : RoundTrips L P) {a : ControlStep} (hC : Present P taskId s a)
    (hi : s.sent = true → arrives P taskId s = true) (h : step L P taskId s a = some s') :
    s'.sent = true → arrives P taskId s' = true := by
  cases a with
  | send reason =>
    intro _
    rw [(arrives_of_send hcodec h).2]
    exact hC
  | other op =>
    simp only [step] at h
    split at h
    · cases h
    · cases h
      intro hsent
      exact arrives_of_subset (hi hsent) (Redis.inbox_subset_apply op taskId)
  | cancel =>
    cases h
    simp [arrives]
  | listen | connect | subscribe | fail | lose | check | receive | tick | streamEnds
  | adapterReturns | abort =>
    obtain ⟨harr, hsent⟩ := arrives_of_isQuiet rfl h
    rw [harr, hsent]
    exact hi

/-- Nothing is lost when every command that was sent arrives. -/
lemma noCancelLost_of_arrives (h : s.sent = true → arrives P taskId s = true) :
    NoCancelLost taskId s := by
  intro hsent _ hinbox
  simpa [arrives, hinbox] using h hsent

variable (L P taskId)

/-- **When no cancel command is lost.**  In every run in which a cancel command is sent only
while the listener is subscribed (or when the token is cancelled anyway), none is lost; and
a command that is sent at any other time is lost for good: whatever the listener does then,
it does not cancel the token. -/
theorem noCancelLost_of_present (hcodec : RoundTrips L P) :
    (∀ s, (machine L P taskId).Reachable (Present P taskId) s → NoCancelLost taskId s) ∧
    ∀ s s' reason, ¬ Present P taskId s (.send reason) →
      (machine L P taskId).step s (.send reason) = some s' →
      ∀ l s'', (machine L P taskId).Run (fun _ a => a.isQuiet = true) s' l s'' →
        s''.subscribed = true → inbox taskId s'' = [] → ¬ NoCancelLost taskId s'' := by
  constructor
  · intro s h
    refine noCancelLost_of_arrives (P := P) ?_
    refine h.invariant (P := fun s => s.sent = true → arrives P taskId s = true) ?_
      fun _ _ _ hC hi hstep => sent_arrives_step hcodec hC hi hstep
    intro s hs hsent
    rw [hs.sent] at hsent
    cases hsent
  · intro s s' reason habsent hstep l s'' hrun hsub hinbox hno
    obtain ⟨hsent, harr⟩ := arrives_of_send hcodec hstep
    have hlost : s''.sent = true ∧ arrives P taskId s'' = false := by
      refine hrun.preserves (P := fun s => s.sent = true ∧ arrives P taskId s = false) ?_
        ⟨hsent, ?_⟩
      · rintro s₁ a s₂ hquiet ⟨hsent₁, harr₁⟩ hstep₁
        obtain ⟨harr₂, hsent₂⟩ := arrives_of_isQuiet hquiet hstep₁
        exact ⟨hsent₂.trans hsent₁, harr₂.trans harr₁⟩
      · rw [harr]
        simpa [Present] using habsent
    have htok := hno hlost.1 hsub hinbox
    simp [arrives, htok] at hlost

/-! ### Two runs -/

/-- The text of a cancel command up to the end of its first field. -/
def commandText : String := "\x7b\"command\":\"cancel\""

/-- The text of a cancel command up to its reason. -/
def reasonText : String := commandText ++ ",\"reason\":\""

/-- The end of a text with a reason. -/
def endText : String := "\"\x7d"

/-- `serde_json::to_string` on cancel commands whose reason needs no escapes. -/
def sampleLibs : Libs where
  sha256 := Libs.sample.sha256
  toRfc3339 := Libs.sample.toRfc3339
  serdeToString
    | .object [("command", .string "cancel")] => some (commandText ++ "\x7d")
    | .object [("command", .string "cancel"), ("reason", .string r)] =>
      some (reasonText ++ r ++ endText)
    | _ => Libs.sample.serdeToString .null

/-- `serde_json::from_str` on the same texts. -/
def sampleParsers : Parsers where
  serdeFromStr text :=
    let chars := text.toList
    let n := reasonText.toList.length
    if chars.take n = reasonText.toList then
      let reason := (chars.drop n).take (chars.length - n - endText.toList.length)
      some (.object [("command", .string "cancel"), ("reason", .string (String.ofList reason))])
    else if text = commandText ++ "\x7d" then some (.object [("command", .string "cancel")])
    else none

lemma roundTrips_sample : RoundTrips sampleLibs sampleParsers := by
  intro reason
  cases reason with
  | none =>
    have hne : (commandText ++ "\x7d").toList.take reasonText.toList.length ≠
        reasonText.toList := by decide +kernel
    refine ⟨_, rfl, ?_⟩
    simp only [sampleParsers, if_neg hne]
    rfl
  | some r =>
    refine ⟨_, rfl, ?_⟩
    have hlen : (reasonText ++ r ++ endText).toList.length - reasonText.toList.length -
        endText.toList.length = r.toList.length := by
      simp only [String.toList_append, List.length_append]
      omega
    simp only [sampleParsers, hlen]
    simp [ControlMessage.toJson, ControlMessage.cancel, ControlCommand.toJson]

/-- Task 1 has just been claimed. -/
def sampleStart : Control := ⟨Redis.empty, .notStarted, false, false, false, false⟩

lemma begins_sampleStart : Begins 1 sampleStart := ⟨rfl, rfl, rfl, rfl, rfl, rfl⟩

/-- The command is sent before the listener has subscribed. -/
def earlySteps : List ControlStep :=
  [.send (some "User requested"), .listen, .connect, .subscribe]

/-- The listener has subscribed and has nothing to consume, and the token is not cancelled. -/
theorem not_noCancelLost_earlySteps :
    RoundTrips sampleLibs sampleParsers ∧
      ∃ s, (machine sampleLibs sampleParsers 1).Reachable Machine.anyStep s ∧
        ¬ NoCancelLost 1 s := by
  have hrun : ((machine sampleLibs sampleParsers 1).exec Machine.anyStep sampleStart
      earlySteps).map (fun s => (s.sent, s.subscribed, inbox 1 s, s.token)) =
        some (true, true, [], false) := by decide +kernel
  obtain ⟨s, hs, hobs⟩ := Option.map_eq_some_iff.1 hrun
  simp only [Prod.mk.injEq] at hobs
  obtain ⟨hsent, hsub, hinbox, htok⟩ := hobs
  refine ⟨roundTrips_sample, s,
    ⟨sampleStart, _, begins_sampleStart, Machine.run_of_exec hs⟩, ?_⟩
  intro h
  rw [h hsent hsub hinbox] at htok
  cases htok

/-- The command is sent when the listener has subscribed. -/
def lateSteps : List ControlStep :=
  [.listen, .connect, .subscribe, .send (some "User requested"), .check, .receive]

/-- The command has cancelled the token. -/
theorem noCancelLost_of_present_lateSteps :
    ∃ s, (machine sampleLibs sampleParsers 1).exec (Present sampleParsers 1) sampleStart
        lateSteps = some s ∧ s.sent = true ∧ inbox 1 s = [] ∧ NoCancelLost 1 s := by
  have hrun : ((machine sampleLibs sampleParsers 1).exec (Present sampleParsers 1) sampleStart
      lateSteps).map (fun s => (s.sent, inbox 1 s)) = some (true, []) := by decide +kernel
  obtain ⟨s, hs, hobs⟩ := Option.map_eq_some_iff.1 hrun
  obtain ⟨hsent, hinbox⟩ := Prod.mk.inj hobs
  exact ⟨s, hs, hsent, hinbox, (noCancelLost_of_present sampleLibs sampleParsers 1
    roundTrips_sample).1 s ⟨sampleStart, _, begins_sampleStart, Machine.run_of_exec hs⟩⟩

/-! ### The control messages of the stream writer -/

variable {L : Libs} {P : Parsers} {taskId : Uuid} {s : Control}

/-- Between two states of the server the listener is sent a cancel command. -/
def Delivers (P : Parsers) (taskId : Uuid) (r r' : Redis Uuid) : Prop :=
  ∃ l, (r'.subscribers taskId).inbox = (r.subscribers taskId).inbox ++ l ∧
    l.any (isCancel P) = true

lemma not_delivers_of_inbox_eq {r r' : Redis Uuid}
    (h : (r'.subscribers taskId).inbox = (r.subscribers taskId).inbox) :
    ¬ Delivers P taskId r r' := by
  rintro ⟨l, hl, hany⟩
  obtain rfl : l = [] := List.append_cancel_left (hl.symm.trans h |>.trans (List.append_nil _).symm)
  cases hany

/-- **The stream writer does not reach the listener.**  `publish_control_message` adds an
entry to the stream `ctrl:{task_id}`, and the listener subscribes to the channel of the same
name.  In no state, whether it is subscribed or not, is it sent a control message in this
way, and it cancels the token afterwards only if it would have done so anyway. -/
theorem not_delivers_publishControlMessage {checked : Bool} {config : StreamWriterConfig}
    {outcome : ℕ → Attempt} {data : Option String} {streamId : String} {r : Redis Uuid}
    (hpub : StreamWriter.publishControlMessage checked config outcome taskId "cancel" data s.redis =
      (some (.ok streamId), r)) :
    ¬ Delivers P taskId s.redis r ∧
      ∀ l s', (machine L P taskId).Run (fun _ a => a.isQuiet = true) { s with redis := r } l s' →
        s'.token = true → arrives P taskId s = true := by
  have hsame : r.subscribers = s.redis.subscribers := by
    have h : (StreamWriter.publishControlMessage checked config outcome taskId "cancel" data
        s.redis).2.subscribers = s.redis.subscribers :=
      StreamWriter.subscribers_publishControlMessage
    rwa [hpub] at h
  refine ⟨not_delivers_of_inbox_eq (by rw [hsame]), ?_⟩
  intro l s' hrun htok
  have harr : arrives P taskId s' = arrives P taskId s := by
    refine hrun.preserves (P := fun s' => arrives P taskId s' = arrives P taskId s) ?_ ?_
    · intro s₁ a s₂ hquiet heq hstep
      exact (arrives_of_isQuiet hquiet hstep).1.trans heq
    · simp [arrives, inbox, hsame]
  simpa [arrives, htok] using harr.symm

/-- The listener of task 1 has subscribed. -/
def sampleListening : Control :=
  { sampleStart with
    listener := .checking
    redis := Redis.empty.subscribe 1 (controlChannel 1)
    subscribed := true }

/-- A control message that Redis accepts at once. -/
def samplePublish : Option (Except StreamWriterError String) × Redis Uuid :=
  StreamWriter.publishControlMessage true {} (fun _ => .accepted "1735992000000-0") 1 "cancel"
    (some "user requested") sampleListening.redis

/-- The message is written, and the listener, which has subscribed, is sent nothing. -/
theorem not_delivers_samplePublish :
    present 1 sampleListening = true ∧
      samplePublish.1.map Except.toOption = some (some "1735992000000-0") ∧
      ¬ Delivers sampleParsers 1 sampleListening.redis samplePublish.2 := by
  refine ⟨by decide +kernel, by decide +kernel, not_delivers_of_inbox_eq ?_⟩
  decide +kernel

/-- The listener goes on after this message, and the token is not cancelled. -/
theorem not_delivers_publishControlMessage_sample :
    ∃ s, (machine sampleLibs sampleParsers 1).exec (fun _ a => a.isQuiet = true)
        { sampleListening with redis := samplePublish.2 } [.check, .tick, .check] = some s ∧
      ¬ s.token = true := by
  have hrun : ((machine sampleLibs sampleParsers 1).exec (fun _ a => a.isQuiet = true)
      { sampleListening with redis := samplePublish.2 } [.check, .tick, .check]).isSome =
        true := by decide +kernel
  obtain ⟨s, hs⟩ := Option.isSome_iff_exists.1 hrun
  refine ⟨s, hs, ?_⟩
  intro htok
  have harr := (not_delivers_publishControlMessage (L := sampleLibs) (P := sampleParsers)
    (s := sampleListening) (show samplePublish = (_, _) from rfl)).2 _ s
      (Machine.run_of_exec hs) htok
  revert harr
  decide +kernel

end Control

end AxonTask
