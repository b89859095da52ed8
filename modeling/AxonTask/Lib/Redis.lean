import Mathlib.Logic.Function.Basic
import Mathlib.Tactic.Common

/-!
# Streams and Pub/Sub of Redis

A stream is a log of entries under a key.  A published message goes to the connections that
are subscribed to its channel when it is published, and to nobody else.  The names of streams
and the names of channels have nothing to do with each other: an entry added under a key is
no message on the channel of the same name.
-/

namespace AxonTask.Lib

/-- An entry of a stream. -/
structure StreamEntry where
  id : String
  fields : List (String × String)
deriving DecidableEq, Repr

/-- A connection in the Pub/Sub mode. -/
structure Subscriber where
  channels : List String := []
  /-- The messages that were delivered and are not consumed yet, the oldest first. -/
  inbox : List String := []
deriving DecidableEq, Repr

/-- A server with its streams and its connections. -/
structure Redis (κ : Type*) where
  streams : String → List StreamEntry
  subscribers : κ → Subscriber

/-- A command, or the loss of a connection. -/
inductive RedisOp (κ : Type*)
  | xadd (key : String) (entry : StreamEntry)
  | publish (channel payload : String)
  | subscribe (k : κ) (channel : String)
  | close (k : κ)

/-- The connection whose subscriptions a command changes. -/
def RedisOp.connection {κ : Type*} : RedisOp κ → Option κ
  | xadd .. | publish .. => none
  | subscribe k _ | close k => some k

namespace Subscriber

/-- What a published message does to a connection. -/
def deliver (c : Subscriber) (channel payload : String) : Subscriber :=
  if channel ∈ c.channels then { c with inbox := c.inbox ++ [payload] } else c

lemma deliver_of_mem {c : Subscriber} {channel : String} (h : channel ∈ c.channels)
    (payload : String) : c.deliver channel payload = { c with inbox := c.inbox ++ [payload] } :=
  if_pos h

lemma deliver_of_not_mem {c : Subscriber} {channel : String} (h : channel ∉ c.channels)
    (payload : String) : c.deliver channel payload = c := if_neg h

@[simp] lemma channels_deliver (c : Subscriber) (channel payload : String) :
    (c.deliver channel payload).channels = c.channels := by
  unfold deliver
  split <;> rfl

lemma inbox_subset_deliver (c : Subscriber) (channel payload : String) :
    c.inbox ⊆ (c.deliver channel payload).inbox := by
  unfold deliver
  split
  · exact List.subset_append_left _ _
  · exact List.Subset.refl _

end Subscriber

namespace Redis

variable {κ : Type*} (r : Redis κ)

/-- No stream has an entry, and nobody is subscribed. -/
def empty : Redis κ := ⟨fun _ => [], fun _ => {}⟩

/-- `XADD`, with the entry that the server makes of it. -/
def xadd (key : String) (entry : StreamEntry) : Redis κ :=
  { r with streams := Function.update r.streams key (r.streams key ++ [entry]) }

/-- `PUBLISH`. -/
def publish (channel payload : String) : Redis κ :=
  { r with subscribers := fun k => (r.subscribers k).deliver channel payload }

/-- From `r` to `r'` exactly the entries `l` are added under the key. -/
def Appends (r r' : Redis κ) (key : String) (l : List StreamEntry) : Prop :=
  r'.streams = Function.update r.streams key (r.streams key ++ l)

lemma Appends.refl (key : String) : r.Appends r key [] := by simp [Appends]

lemma appends_xadd (key : String) (entry : StreamEntry) :
    r.Appends (r.xadd key entry) key [entry] :=
  rfl

lemma Appends.trans {r r' r'' : Redis κ} {key : String} {l l' : List StreamEntry}
    (h : r.Appends r' key l) (h' : r'.Appends r'' key l') : r.Appends r'' key (l ++ l') := by
  unfold Appends at h h' ⊢
  rw [h', h, Function.update_idem, Function.update_self, List.append_assoc]

/-- What is added is determined by the two servers. -/
lemma Appends.eq {r r' : Redis κ} {key : String} {l l' : List StreamEntry}
    (h : r.Appends r' key l) (h' : r.Appends r' key l') : l = l' := by
  have hkey := congrFun (h.symm.trans h') key
  rw [Function.update_self, Function.update_self] at hkey
  exact List.append_cancel_left hkey

@[simp] lemma subscribers_xadd (key : String) (entry : StreamEntry) :
    (r.xadd key entry).subscribers = r.subscribers := rfl

@[simp] lemma subscribers_publish (channel payload : String) (k : κ) :
    (r.publish channel payload).subscribers k = (r.subscribers k).deliver channel payload := rfl

variable [DecidableEq κ]

/-- `SUBSCRIBE` on the connection `k`. -/
def subscribe (k : κ) (channel : String) : Redis κ :=
  { r with
    subscribers := Function.update r.subscribers k
      { r.subscribers k with channels := (r.subscribers k).channels ++ [channel] } }

/-- The connection `k` is closed; what was delivered to it stays. -/
def close (k : κ) : Redis κ :=
  { r with subscribers := Function.update r.subscribers k { r.subscribers k with channels := [] } }

/-- The connection `k` consumes its oldest message. -/
def receive (k : κ) : Option (String × Redis κ) :=
  match (r.subscribers k).inbox with
  | [] => none
  | payload :: inbox =>
    some (payload,
      { r with subscribers := Function.update r.subscribers k { r.subscribers k with inbox } })

/-- The server after a command. -/
def apply : RedisOp κ → Redis κ
  | .xadd key entry => r.xadd key entry
  | .publish channel payload => r.publish channel payload
  | .subscribe k channel => r.subscribe k channel
  | .close k => r.close k

@[simp] lemma inbox_subscribe (k k' : κ) (channel : String) :
    ((r.subscribe k channel).subscribers k').inbox = (r.subscribers k').inbox := by
  unfold subscribe
  by_cases h : k' = k
  · subst h
    simp
  · simp [Function.update_of_ne h]

@[simp] lemma inbox_close (k k' : κ) :
    ((r.close k).subscribers k').inbox = (r.subscribers k').inbox := by
  unfold close
  by_cases h : k' = k
  · subst h
    simp
  · simp [Function.update_of_ne h]

variable {r}

/-- **Inversion of a consumption.** -/
lemma receive_eq_some {r' : Redis κ} {k : κ} {payload : String}
    (h : r.receive k = some (payload, r')) :
    (r.subscribers k).inbox = payload :: (r'.subscribers k).inbox ∧
      (r'.subscribers k).channels = (r.subscribers k).channels := by
  unfold receive at h
  split at h
  · cases h
  · rename_i p inbox heq
    cases h
    simp [heq]

/-- **Frame rule.**  A command on another connection can only add messages. -/
lemma inbox_subset_apply (op : RedisOp κ) (k : κ) :
    (r.subscribers k).inbox ⊆ ((r.apply op).subscribers k).inbox := by
  cases op with
  | xadd => exact List.Subset.refl _
  | publish channel payload => exact Subscriber.inbox_subset_deliver _ _ _
  | subscribe k' channel => simp [apply]
  | close k' => simp [apply]

end Redis

end AxonTask.Lib
