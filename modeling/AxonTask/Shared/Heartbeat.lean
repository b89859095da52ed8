import AxonTask.Lib.Expiry
import AxonTask.Lib.Machine
import AxonTask.Shared.EventFields

/-!
# Heartbeats (`axontask-shared/src/redis/heartbeat.rs`)

A worker keeps a key of its task alive in Redis, and a monitor takes the task for alive while
the key is there.  What the monitor sees is decided by the last heartbeat that has reached the
server: how long ago that was, and whether it has been removed.  The caller does not always know,
since a connection can fail before or after the server has run a command.
-/

namespace AxonTask

open Lib

/-! ### The data of a heartbeat -/

/-- `HeartbeatData`. -/
structure HeartbeatData where
  workerId : String
  timestamp : DateTime
  metadata : Option JsonValue

/-- `HeartbeatError`, without the texts of `serde_json`. -/
inductive HeartbeatError
  | redisCommandError (message : String)
  | jsonError
  | invalidData
deriving DecidableEq, Repr

/-- What `HeartbeatData` calls of `serde_json` and, for its timestamp, of `chrono`. -/
structure HeartbeatParsers extends Parsers where
  writeTimestamp : DateTime → String
  readTimestamp : String → Option DateTime

/-- `String::deserialize`. -/
def JsonValue.asString : JsonValue → Option String
  | .string s => some s
  | _ => none

/-- `Option<Value>::deserialize`: a null is no value. -/
def JsonValue.nonNull : JsonValue → Option JsonValue
  | .null => none
  | v => some v

namespace HeartbeatData

variable (L : Libs) (P : HeartbeatParsers)

/-- `HeartbeatData::serialize`. -/
def toValue (data : HeartbeatData) : JsonValue :=
  .object <| [("worker_id", .string data.workerId),
    ("timestamp", .string (P.writeTimestamp data.timestamp))] ++
      data.metadata.toList.map fun metadata => ("metadata", metadata)

/-- The fields of the struct. -/
def fieldNames : List String := ["worker_id", "timestamp", "metadata"]

/-- `HeartbeatData::deserialize`: unknown fields are skipped, and a repeated one is an error. -/
def fromValue : JsonValue → Option HeartbeatData
  | .object fields =>
    if fieldNames.any fun name => decide (1 < (fields.map Prod.fst).count name) then none
    else
      ((fields.lookup "worker_id").bind JsonValue.asString).bind fun workerId =>
        (((fields.lookup "timestamp").bind JsonValue.asString).bind P.readTimestamp).map
          fun timestamp =>
            ⟨workerId, timestamp, (fields.lookup "metadata").bind JsonValue.nonNull⟩
  | .array [workerId, timestamp, metadata] =>
    workerId.asString.bind fun workerId =>
      (timestamp.asString.bind P.readTimestamp).map fun timestamp =>
        ⟨workerId, timestamp, metadata.nonNull⟩
  | _ => none

/-- `HeartbeatData::to_json`. -/
def toJson (data : HeartbeatData) : Except HeartbeatError String :=
  okOr .jsonError (L.serdeToString (data.toValue P))

/-- `HeartbeatData::from_json`. -/
def fromJson (json : String) : Except HeartbeatError HeartbeatData :=
  okOr .invalidData ((P.serdeFromStr json).bind (fromValue P))

/-- What is read back of the data: metadata that are null are none. -/
def readBack (data : HeartbeatData) : HeartbeatData :=
  { data with metadata := data.metadata.bind JsonValue.nonNull }

lemma fromValue_toValue {P : HeartbeatParsers} {data : HeartbeatData}
    (h : P.readTimestamp (P.writeTimestamp data.timestamp) = some data.timestamp) :
    fromValue P (data.toValue P) = some data.readBack := by
  obtain ⟨workerId, timestamp, metadata⟩ := data
  have hnames : (fieldNames.any fun name => decide (1 < List.count name
      (([("worker_id", JsonValue.string workerId),
        ("timestamp", .string (P.writeTimestamp timestamp))] ++
          metadata.toList.map fun metadata => ("metadata", metadata)).map Prod.fst))) = false := by
    cases metadata <;> rfl
  rw [toValue, fromValue, hnames]
  cases metadata <;> simp [List.lookup_cons, JsonValue.asString, h, readBack]

end HeartbeatData

/-- The readers invert the printers on the data of some heartbeats. -/
structure HeartbeatParsers.Inverts (P : HeartbeatParsers) (L : Libs) (datas : Set HeartbeatData) :
    Prop where
  timestamp : ∀ data ∈ datas,
    P.readTimestamp (P.writeTimestamp data.timestamp) = some data.timestamp
  value : ∀ data ∈ datas, ∀ s, L.serdeToString (data.toValue P) = some s →
    P.serdeFromStr s = some (data.toValue P)

/-- What is written is read back, but for metadata that are null. -/
lemma HeartbeatData.fromJson_toJson {L : Libs} {P : HeartbeatParsers} {datas : Set HeartbeatData}
    (hP : P.Inverts L datas) {data : HeartbeatData} (hdata : data ∈ datas) {json : String}
    (h : data.toJson L P = .ok json) : fromJson P json = .ok data.readBack := by
  rw [toJson, okOr_eq_ok] at h
  rw [fromJson, okOr_eq_ok, hP.value data hdata json h, Option.bind_some,
    fromValue_toValue (hP.timestamp data hdata)]

/-! ### The manager -/

/-- `HeartbeatConfig`. -/
structure HeartbeatConfig where
  ttlSeconds : UInt64 := 60
  intervalSeconds : UInt64 := 30

/-- What the connection does with a command: it brings the answer, or it fails, before the
server has run the command or after that. -/
inductive HeartbeatCall
  | answered
  | notRun (message : String)
  | replyLost (message : String)

namespace HeartbeatCall

/-- What the caller gets and the keys afterwards, when the server would do `reply`. -/
def run {α : Type} (call : HeartbeatCall) (r : ExpiryStore String String)
    (reply : Except HeartbeatError α × ExpiryStore String String) :
    Except HeartbeatError α × ExpiryStore String String :=
  match call with
  | .answered => reply
  | .notRun message => (.error (.redisCommandError message), r)
  | .replyLost message => (.error (.redisCommandError message), reply.2)

/-- The server has run the command. -/
def hasRun : HeartbeatCall → Bool
  | answered | replyLost _ => true
  | notRun _ => false

variable {α : Type} {call : HeartbeatCall} {r : ExpiryStore String String}
  {reply : Except HeartbeatError α × ExpiryStore String String}

lemma snd_run : (call.run r reply).2 = if call.hasRun then reply.2 else r := by
  cases call <;> rfl

end HeartbeatCall

namespace HeartbeatManager

variable (L : Libs) (P : HeartbeatParsers) (config : HeartbeatConfig)
  (r : ExpiryStore String String)

/-- `SETEX` as the server checks it: the time to live is positive, and the deadline fits in 64
bits. -/
def setEx (key value : String) (seconds : UInt64) :
    Except HeartbeatError Unit × ExpiryStore String String :=
  if 2 ^ 63 ≤ seconds.toNat then
    (.error (.redisCommandError "value is not an integer or out of range"), r)
  else if 0 < seconds.toNat ∧ r.now + seconds.toNat * 1000 < 2 ^ 63 then
    (.ok (), r.setEx key seconds.toNat value)
  else (.error (.redisCommandError "invalid expire time in 'setex' command"), r)

/-- What the two functions that send do with their data. -/
def sendData (taskId : Uuid) (data : HeartbeatData) (call : HeartbeatCall) :
    Except HeartbeatError Unit × ExpiryStore String String :=
  match data.toJson L P with
  | .error e => (.error e, r)
  | .ok value => call.run r (setEx r (heartbeatKey taskId) value config.ttlSeconds)

/-- `HeartbeatManager::send_heartbeat`. -/
def sendHeartbeat (taskId : Uuid) (workerId : String) (now : DateTime) (call : HeartbeatCall) :
    Except HeartbeatError Unit × ExpiryStore String String :=
  sendData L P config r taskId ⟨workerId, now, none⟩ call

/-- `HeartbeatManager::send_heartbeat_with_metadata`. -/
def sendHeartbeatWithMetadata (taskId : Uuid) (workerId : String) (metadata : JsonValue)
    (now : DateTime) (call : HeartbeatCall) :
    Except HeartbeatError Unit × ExpiryStore String String :=
  sendData L P config r taskId ⟨workerId, now, some metadata⟩ call

/-! The three readings as the server answers them. -/

/-- `HeartbeatManager::is_alive`. -/
def isAlive (taskId : Uuid) : Bool := r.contains (heartbeatKey taskId)

/-- `HeartbeatManager::get_heartbeat`. -/
def getHeartbeat (taskId : Uuid) : Except HeartbeatError (Option HeartbeatData) :=
  match r.get (heartbeatKey taskId) with
  | some json => (HeartbeatData.fromJson P json).map some
  | none => .ok none

/-- `HeartbeatManager::get_ttl`. -/
def getTtl (taskId : Uuid) : Option ℤ :=
  let ttl := r.ttl (heartbeatKey taskId)
  if ttl = -2 then none else if ttl = -1 then none else some ttl

/-- `HeartbeatManager::remove_heartbeat`. -/
def removeHeartbeat (taskId : Uuid) (call : HeartbeatCall) :
    Except HeartbeatError Bool × ExpiryStore String String :=
  let (deleted, r') := r.del (heartbeatKey taskId)
  call.run r (.ok (decide (0 < deleted)), r')

end HeartbeatManager

/-! ### Senders and monitors -/

/-- A call that writes, or the passing of time. -/
inductive HeartbeatOp
  | send (taskId : Uuid) (workerId : String) (now : DateTime) (call : HeartbeatCall)
  | sendWithMetadata (taskId : Uuid) (workerId : String) (metadata : JsonValue) (now : DateTime)
      (call : HeartbeatCall)
  | remove (taskId : Uuid) (call : HeartbeatCall)
  | wait (ms : ℕ)

/-- What the server has run, and the passing of time. -/
inductive HeartbeatEvent
  | sent (taskId : Uuid) (data : HeartbeatData) (json : String)
  | removed (taskId : Uuid)
  | waited (ms : ℕ)

namespace HeartbeatEvent

/-- The task of an event. -/
def task : HeartbeatEvent → Option Uuid
  | sent taskId _ _ | removed taskId => some taskId
  | waited _ => none

/-- The command of an event. -/
def command (seconds : UInt64) : HeartbeatEvent → ExpiryOp String String
  | sent taskId _ json => .setEx (heartbeatKey taskId) seconds.toNat json
  | removed taskId => .del (heartbeatKey taskId)
  | waited ms => .wait ms

end HeartbeatEvent

/-- The server, and what it has run. -/
structure HeartbeatState where
  store : ExpiryStore String String
  log : List HeartbeatEvent

namespace HeartbeatState

variable (L : Libs) (P : HeartbeatParsers) (config : HeartbeatConfig)

open HeartbeatManager

/-- The state after a call that sends `data`: `SETEX` is in the log if the server has run it and
has not refused it, whatever the caller has been told. -/
def afterSend (s : HeartbeatState) (taskId : Uuid) (data : HeartbeatData) (call : HeartbeatCall)
    (result : Except HeartbeatError Unit × ExpiryStore String String) : HeartbeatState :=
  match data.toJson L P with
  | .ok json =>
    if call.hasRun && (setEx s.store (heartbeatKey taskId) json config.ttlSeconds).1.isOk then
      ⟨result.2, s.log ++ [.sent taskId data json]⟩
    else ⟨result.2, s.log⟩
  | .error _ => ⟨result.2, s.log⟩

/-- A call of any sender, or the passing of time. -/
def step (s : HeartbeatState) : HeartbeatOp → Option HeartbeatState
  | .send taskId workerId now call =>
    some (s.afterSend L P config taskId ⟨workerId, now, none⟩ call
      (sendHeartbeat L P config s.store taskId workerId now call))
  | .sendWithMetadata taskId workerId metadata now call =>
    some (s.afterSend L P config taskId ⟨workerId, now, some metadata⟩ call
      (sendHeartbeatWithMetadata L P config s.store taskId workerId metadata now call))
  | .remove taskId call =>
    some ⟨(removeHeartbeat s.store taskId call).2,
      s.log ++ if call.hasRun then [.removed taskId] else []⟩
  | .wait ms => some ⟨s.store.apply (.wait ms), s.log ++ [.waited ms]⟩

/-- The calls in any order, from a server without keys at any time. -/
def machine : Machine HeartbeatState HeartbeatOp where
  Init s := ∃ t, s = ⟨ExpiryStore.empty t, []⟩
  step := step L P config

variable {L : Libs} {P : HeartbeatParsers} {config : HeartbeatConfig} {s s' : HeartbeatState}

/-- The server has run the commands of the log, and the log has what was written. -/
structure Inv (L : Libs) (P : HeartbeatParsers) (config : HeartbeatConfig) (s : HeartbeatState) :
    Prop where
  store : ∃ t, s.store =
    (ExpiryStore.empty t).run (s.log.map (HeartbeatEvent.command config.ttlSeconds))
  json : ∀ taskId data json, .sent taskId data json ∈ s.log → data.toJson L P = .ok json

/-- One more command. -/
lemma Inv.snoc (hi : Inv L P config s) {e : HeartbeatEvent}
    (hstore : s'.store = s.store.apply (e.command config.ttlSeconds)) (hlog : s'.log = s.log ++ [e])
    (hjson : ∀ taskId data json, e = .sent taskId data json → data.toJson L P = .ok json) :
    Inv L P config s' := by
  obtain ⟨t, ht⟩ := hi.store
  refine ⟨⟨t, ?_⟩, ?_⟩
  · rw [hstore, hlog, List.map_append, List.map_singleton, ExpiryStore.run_snoc, ht]
  · intro taskId data json hmem
    rw [hlog, List.mem_append, List.mem_singleton] at hmem
    rcases hmem with hmem | heq
    · exact hi.json taskId data json hmem
    · exact hjson taskId data json heq.symm

/-- A call that sends has written its data, or nothing. -/
lemma Inv.afterSend (hi : Inv L P config s) (taskId : Uuid) (data : HeartbeatData)
    (call : HeartbeatCall) :
    Inv L P config (s.afterSend L P config taskId data call
      (sendData L P config s.store taskId data call)) := by
  unfold sendData HeartbeatState.afterSend
  cases hjson : data.toJson L P with
  | error e => exact hi
  | ok json =>
    dsimp only
    rw [HeartbeatCall.snd_run]
    cases call.hasRun with
    | false => exact hi
    | true =>
      unfold setEx
      split
      · exact hi
      · split
        · refine hi.snoc (e := .sent taskId data json) rfl rfl ?_
          rintro _ _ _ ⟨⟩
          exact hjson
        · exact hi

lemma Inv.step {op : HeartbeatOp} (hi : Inv L P config s)
    (h : (machine L P config).step s op = some s') : Inv L P config s' := by
  cases op with
  | send taskId workerId now call =>
    cases h
    exact hi.afterSend taskId _ call
  | sendWithMetadata taskId workerId metadata now call =>
    cases h
    exact hi.afterSend taskId _ call
  | remove taskId call =>
    cases h
    rw [removeHeartbeat, HeartbeatCall.snd_run]
    cases call.hasRun with
    | false => simpa using hi
    | true => exact hi.snoc (e := .removed taskId) rfl rfl (by rintro _ _ _ ⟨⟩)
  | wait ms =>
    cases h
    exact hi.snoc (e := .waited ms) rfl rfl (by rintro _ _ _ ⟨⟩)

lemma inv_of_reachable (h : (machine L P config).Reachable Machine.anyStep s) :
    Inv L P config s := by
  refine h.invariant (P := Inv L P config) ?_ fun _ _ _ _ hi hstep => hi.step hstep
  rintro _ ⟨t, rfl⟩
  exact ⟨⟨t, rfl⟩, fun _ _ _ hmem => by cases hmem⟩

/-! ### The last heartbeat -/

/-- The last heartbeat of the task that has reached the server carried `data`, `ms` have passed
since, and no removal has reached it meanwhile. -/
def LastBeat (log : List HeartbeatEvent) (taskId : Uuid) (data : HeartbeatData) (ms : ℕ) : Prop :=
  ∃ l₁ json l₂, log = l₁ ++ .sent taskId data json :: l₂ ∧
    (∀ e ∈ l₂, e.task ≠ some taskId) ∧
    (l₂.map fun e => (e.command 0).duration).sum = ms

lemma heartbeatKey_injective : Function.Injective heartbeatKey := by
  intro t u h
  exact Uuid.display_injective ((String.append_right_inj "hb:").1 h)

lemma key_command (seconds : UInt64) (e : HeartbeatEvent) :
    (e.command seconds).key = e.task.map heartbeatKey := by
  cases e <;> rfl

lemma elapsed_map_command (seconds : UInt64) (l : List HeartbeatEvent) :
    elapsed (l.map (HeartbeatEvent.command seconds)) =
      (l.map fun e => (e.command 0).duration).sum := by
  rw [elapsed, List.map_map]
  congr 1
  refine List.map_congr_left ?_
  intro e _
  cases e <;> rfl

/-- The last write to the key of a task is its last heartbeat. -/
lemma lastWrite_iff {log : List HeartbeatEvent} {seconds : UInt64} {taskId : Uuid} {n : ℕ}
    {json : String} {ms : ℕ} :
    ExpiryStore.LastWrite (log.map (HeartbeatEvent.command seconds)) (heartbeatKey taskId) n json
      ms ↔ n = seconds.toNat ∧ ∃ data l₁ l₂, log = l₁ ++ .sent taskId data json :: l₂ ∧
        (∀ e ∈ l₂, e.task ≠ some taskId) ∧
        (l₂.map fun e => (e.command 0).duration).sum = ms := by
  have hfree : ∀ l : List HeartbeatEvent,
      (∀ op ∈ l.map (HeartbeatEvent.command seconds), op.key ≠ some (heartbeatKey taskId)) ↔
        ∀ e ∈ l, e.task ≠ some taskId := by
    intro l
    simp only [List.forall_mem_map, key_command]
    refine forall₂_congr ?_
    intro e _
    cases e.task <;> simp [heartbeatKey_injective.eq_iff]
  constructor
  · rintro ⟨ops₁, ops₂, hsplit, hops, rfl⟩
    obtain ⟨l₁, l₂, rfl, rfl, hl₂⟩ := List.map_eq_append_iff.1 hsplit
    obtain ⟨e, l₂, rfl, he, rfl⟩ := List.map_eq_cons_iff.1 hl₂
    cases e with
    | sent taskId' data json' =>
      simp only [HeartbeatEvent.command, ExpiryOp.setEx.injEq] at he
      obtain ⟨hkey, hn, rfl⟩ := he
      obtain rfl := heartbeatKey_injective hkey
      exact ⟨hn.symm, data, l₁, l₂, rfl, (hfree l₂).1 hops, (elapsed_map_command seconds l₂).symm⟩
    | removed taskId' => cases he
    | waited ms => cases he
  · rintro ⟨rfl, data, l₁, l₂, rfl, hl₂, rfl⟩
    exact ⟨l₁.map (HeartbeatEvent.command seconds), l₂.map (HeartbeatEvent.command seconds),
      by rw [List.map_append, List.map_cons]; rfl, (hfree l₂).2 hl₂, elapsed_map_command seconds l₂⟩

/-- What the manager reads when the last heartbeat is known. -/
def Observed (P : HeartbeatParsers) (config : HeartbeatConfig) (s : HeartbeatState) (taskId : Uuid)
    (data : HeartbeatData) (ms : ℕ) : Prop :=
  let ttl := config.ttlSeconds.toNat * 1000
  if ms ≤ ttl then
    HeartbeatManager.getHeartbeat P s.store taskId = .ok (some data.readBack) ∧
      HeartbeatManager.getTtl s.store taskId = some (((ttl - ms + 500) / 1000 : ℕ) : ℤ)
  else
    HeartbeatManager.getHeartbeat P s.store taskId = .ok none ∧
      HeartbeatManager.getTtl s.store taskId = none

/-- **Liveness.**  Whatever any number of workers have sent and removed, whatever has become of
their commands and replies, and however much time has passed, a task is alive exactly when its
last heartbeat that has reached the server is not removed and not older than the time to live.
Then `get_heartbeat` returns the data of that heartbeat, up to
null metadata, and `get_ttl` the rest of its time, rounded to seconds; a task that is not
alive has neither. -/
theorem heartbeat_liveness {datas : Set HeartbeatData}
    (h : (machine L P config).Reachable Machine.anyStep s) (hP : P.Inverts L datas)
    (hdatas : ∀ taskId data json, .sent taskId data json ∈ s.log → data ∈ datas) (taskId : Uuid) :
    (HeartbeatManager.isAlive s.store taskId = true ↔
      ∃ data ms, LastBeat s.log taskId data ms ∧ ms ≤ config.ttlSeconds.toNat * 1000) ∧
    ∀ data ms, LastBeat s.log taskId data ms → Observed P config s taskId data ms := by
  have hi := inv_of_reachable h
  obtain ⟨t, hstore⟩ := hi.store
  refine ⟨?_, ?_⟩
  · rw [HeartbeatManager.isAlive, ExpiryStore.contains, hstore, Option.isSome_iff_exists]
    constructor
    · rintro ⟨json, hjson⟩
      obtain ⟨n, ms, hlast, hms⟩ := ExpiryStore.lastWrite_of_get_run hjson
      obtain ⟨rfl, data, l₁, l₂, hlog, hfree, hsum⟩ := lastWrite_iff.1 hlast
      exact ⟨data, ms, ⟨l₁, json, l₂, hlog, hfree, hsum⟩, hms⟩
    · rintro ⟨data, ms, ⟨l₁, json, l₂, hlog, hfree, hsum⟩, hms⟩
      have hlast :=
        lastWrite_iff.2 ⟨Eq.refl config.ttlSeconds.toNat, data, l₁, l₂, hlog, hfree, hsum⟩
      exact ⟨json, by rw [ExpiryStore.get_run_of_lastWrite t hlast, if_pos hms]⟩
  · rintro data ms ⟨l₁, json, l₂, hlog, hfree, hsum⟩
    have hlast := lastWrite_iff.2 ⟨Eq.refl config.ttlSeconds.toNat, data, l₁, l₂, hlog, hfree, hsum⟩
    have hmem : .sent taskId data json ∈ s.log := by rw [hlog]; simp
    have hread := HeartbeatData.fromJson_toJson hP (hdatas taskId data json hmem)
      (hi.json taskId data json hmem)
    rw [Observed, HeartbeatManager.getHeartbeat, HeartbeatManager.getTtl, hstore,
      ExpiryStore.get_run_of_lastWrite t hlast, ExpiryStore.ttl_run_of_lastWrite t hlast]
    by_cases hms : ms ≤ config.ttlSeconds.toNat * 1000
    · simp only [if_pos hms, hread, Except.map]
      refine ⟨trivial, ?_⟩
      rw [if_neg (by omega), if_neg (by omega)]
    · simp [if_neg hms]

/-- A heartbeat without metadata. -/
def sampleBeat : HeartbeatData := ⟨"worker-1", Libs.sampleTime, none⟩

/-- Its text. -/
def sampleText : String :=
  "\x7b\"worker_id\":\"worker-1\",\"timestamp\":\"2025-01-04T12:00:00Z\"\x7d"

/-- The printers as they are on this heartbeat. -/
def sampleLibs : Libs := { Libs.sample with serdeToString := fun _ => some sampleText }

/-- The readers as they are on its text. -/
def sampleParsers : HeartbeatParsers where
  serdeFromStr _ := some (.object
    [("worker_id", .string "worker-1"), ("timestamp", .string "2025-01-04T12:00:00Z")])
  writeTimestamp _ := "2025-01-04T12:00:00Z"
  readTimestamp _ := some Libs.sampleTime

lemma sampleParsers_inverts : sampleParsers.Inverts sampleLibs {sampleBeat} := by
  constructor
  · rintro data rfl
    rfl
  · rintro data rfl text -
    rfl

/-- Two tasks beat, 45 seconds apart.  The worker takes the first beat for failed, as its reply
is lost; the second beat of the first task and the removal of the other never reach the server. -/
def sampleSteps : List HeartbeatOp :=
  [.send 7 "worker-1" Libs.sampleTime (.replyLost "connection reset"), .wait 45000,
    .send 8 "worker-1" Libs.sampleTime .answered,
    .send 7 "worker-1" Libs.sampleTime (.notRun "broken pipe"),
    .remove 8 (.notRun "broken pipe"), .wait 15001]

/-- After 60001 milliseconds the first task is not alive any more, and the second one is. -/
theorem heartbeat_liveness_sample : ∃ s,
    (machine sampleLibs sampleParsers {}).exec Machine.anyStep ⟨ExpiryStore.empty 0, []⟩
      sampleSteps = some s ∧
    Observed sampleParsers {} s 7 sampleBeat 60001 ∧
    Observed sampleParsers {} s 8 sampleBeat 15001 := by
  obtain ⟨s, hs, hlog⟩ : ∃ s, (machine sampleLibs sampleParsers {}).exec Machine.anyStep
      ⟨ExpiryStore.empty 0, []⟩ sampleSteps = some s ∧
        s.log = [.sent 7 sampleBeat sampleText, .waited 45000, .sent 8 sampleBeat sampleText,
          .waited 15001] := ⟨_, rfl, rfl⟩
  have hreach : (machine sampleLibs sampleParsers {}).Reachable Machine.anyStep s :=
    ⟨_, _, ⟨0, rfl⟩, Machine.run_of_exec hs⟩
  have hdatas : ∀ taskId data json, .sent taskId data json ∈ s.log →
      data ∈ ({sampleBeat} : Set HeartbeatData) := by
    intro taskId data json hmem
    simp only [hlog, List.mem_cons, HeartbeatEvent.sent.injEq, reduceCtorEq, false_or,
      List.not_mem_nil, or_false] at hmem
    rcases hmem with ⟨-, hdata, -⟩ | ⟨-, hdata, -⟩ <;> exact hdata
  have hbeat7 : LastBeat s.log 7 sampleBeat 60001 :=
    ⟨[], sampleText, _, hlog, by simp [HeartbeatEvent.task], rfl⟩
  have hbeat8 : LastBeat s.log 8 sampleBeat 15001 :=
    ⟨[.sent 7 sampleBeat sampleText, .waited 45000], sampleText, _, hlog,
      by simp [HeartbeatEvent.task], rfl⟩
  exact ⟨s, hs, (heartbeat_liveness hreach sampleParsers_inverts hdatas 7).2 _ _ hbeat7,
    (heartbeat_liveness hreach sampleParsers_inverts hdatas 8).2 _ _ hbeat8⟩

end HeartbeatState

end AxonTask
