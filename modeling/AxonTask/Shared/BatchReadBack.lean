import AxonTask.Lib.Repetition
import AxonTask.Shared.PublishEvent

/-!
# A batch read back (`publish_batch` and the readers of its entries)

Each event of a batch is published with its own retries, and an attempt whose reply is lost has
added its entry.  Whatever happens to the attempts, a reader of the stream finds the events of the
batch in their order, each between once and `max_retries + 1` times, up to the event at which
the batch has failed.
-/

namespace AxonTask

open Lib

namespace Attempt

/-- The attempt adds an entry. -/
def isWritten : Attempt → Bool
  | accepted _ | replyLost .. => true
  | refused _ => false

lemma map_fields_entries (fields : List (String × String)) (l : List Attempt) :
    (l.flatMap (entries fields)).map StreamEntry.fields =
      List.replicate (l.countP isWritten) fields := by
  induction l with
  | nil => rfl
  | cons a l ih =>
    rw [List.flatMap_cons, List.map_append, ih, List.countP_cons]
    cases a with
    | refused e => rfl
    | accepted streamId | replyLost streamId e => rfl

lemma length_made_le (outcome : ℕ → Attempt) (remaining attempt : ℕ) :
    (made outcome remaining attempt).length ≤ remaining := by
  induction remaining generalizing attempt with
  | zero => exact le_rfl
  | succ remaining ih =>
    rw [made]
    split
    · simp
    · exact Nat.succ_le_succ (ih (attempt + 1))

end Attempt

namespace StreamWriter

section ReadBack

variable {κ : Type*} {checked : Bool} {config : StreamWriterConfig} {L : Libs} {P : EventParsers}
  {r r' : Redis κ} {t : Uuid}

/-- How often an event is in the stream at most. -/
def maxCopies (config : StreamWriterConfig) : ℕ := config.maxRetries.toNat + 1

/-- What is read from entries. -/
def readEntries (P : EventParsers) (l : List StreamEntry) :
    List (Except SerializationError TaskEvent) :=
  l.map fun entry => deserializeEvent P entry.fields

/-- The event is read back from what is written for it. -/
def ReadsBack (L : Libs) (P : EventParsers) (event : TaskEvent) : Prop :=
  (serializeEvent L event).bind (deserializeEvent P) = .ok event

/-- **Spec of a call.**  It adds the event a number of times, and at least once when it succeeds. -/
lemma publishEvent_copies {outcome : ℕ → Attempt} {event : TaskEvent}
    {result : Except PublishError String} (hread : ReadsBack L P event)
    (h : publishEvent checked config L outcome event r = (some result, r')) :
    ∃ l c, r.Appends r' (eventStreamKey event.taskId) l ∧
      readEntries P l = (List.replicate c event).map .ok ∧ c ≤ maxCopies config ∧
      (result.isOk = true → 0 < c) := by
  cases hfields : serializeEvent L event with
  | error e =>
    rw [ReadsBack, hfields] at hread
    cases hread
  | ok fields =>
    rw [ReadsBack, hfields] at hread
    obtain ⟨p, hleaves, hok, herror⟩ := leaves_publishEvent hfields (by rw [h]; simp)
    have hentries : readEntries P ((Attempt.made outcome (maxCopies config) 0).flatMap
        (Attempt.entries fields)) = (List.replicate ((Attempt.made outcome
          (maxCopies config) 0).countP Attempt.isWritten) event).map .ok := by
      have hmap := congrArg (List.map (deserializeEvent P))
        (Attempt.map_fields_entries fields (Attempt.made outcome (maxCopies config) 0))
      rw [List.map_map, List.map_replicate] at hmap
      rw [List.map_replicate]
      exact hmap.trans (congrArg _ hread)
    have hle := (List.countP_le_length (p := Attempt.isWritten)).trans
      (Attempt.length_made_le outcome (maxCopies config) 0)
    rcases hleaves.result with ⟨l, id, hmade, -, hp⟩ | ⟨-, e, hp⟩
    · have hcall := (hok id hp).symm.trans h
      simp only [Prod.mk.injEq, Option.some.injEq] at hcall
      obtain ⟨rfl, rfl⟩ := hcall
      refine ⟨_, _, hleaves.appends, hentries, hle, ?_⟩
      intro _
      rw [maxCopies, hmade, List.countP_append]
      exact Nat.lt_of_lt_of_le (by simp [Attempt.isWritten]) (Nat.le_add_left _ _)
    · have hcall := (herror e hp).symm.trans h
      simp only [Prod.mk.injEq, Option.some.injEq] at hcall
      obtain ⟨rfl, rfl⟩ := hcall
      exact ⟨_, _, hleaves.appends, hentries, hle, fun hok => by cases hok⟩

/-- The copies of the events that a reader finds: of all of them when the batch has succeeded, and
else of those before one that is there some more times or not at all. -/
inductive Copies (n : ℕ) (events : List TaskEvent) :
    Except PublishError (List String) → List TaskEvent → Prop
  | complete {ids : List String} {all : List TaskEvent} (repeated : Repeats n events all) :
    Copies n events (.ok ids) all
  | broken {e : PublishError} {before after copies : List TaskEvent} {event : TaskEvent} {c : ℕ}
    (split : events = before ++ event :: after) (repeated : Repeats n before copies)
    (le : c ≤ n) :
    Copies n events (.error e) (copies ++ List.replicate c event)

/-- One more event in front. -/
lemma Copies.cons {n c : ℕ} {event : TaskEvent} {events all : List TaskEvent}
    {result : Except PublishError (List String)} (pos : 0 < c) (le : c ≤ n)
    (h : Copies n events result all) :
    Copies n (event :: events) result (List.replicate c event ++ all) := by
  cases h with
  | complete repeated => exact .complete (.cons pos le repeated)
  | broken split repeated hle =>
    rw [split, ← List.append_assoc]
    exact .broken rfl (.cons pos le repeated) hle

/-- **Spec of the loop.** -/
lemma publishLoop_copies {outcomes : ℕ → ℕ → Attempt} {events : List TaskEvent} {i : ℕ}
    {streamIds : List String} {result : Except PublishError (List String)}
    (htask : ∀ e ∈ events, e.taskId = t) (hread : ∀ e ∈ events, ReadsBack L P e)
    (h : publishLoop checked config L outcomes i events streamIds r = (some result, r')) :
    ∃ l all, r.Appends r' (eventStreamKey t) l ∧ readEntries P l = all.map .ok ∧
      Copies (maxCopies config) events result all := by
  induction events generalizing i streamIds r with
  | nil =>
    cases h
    exact ⟨[], [], Redis.Appends.refl _ _, rfl, .complete .nil⟩
  | cons event events ih =>
    have hfirst := hread event List.mem_cons_self
    simp only [publishLoop] at h
    split at h
    · rename_i streamId r₁ hcall
      obtain ⟨l, c, happends, hl, hle, hpos⟩ := publishEvent_copies hfirst hcall
      obtain ⟨l', all, happends', hl', hcopies⟩ :=
        ih (fun e he => htask e (List.mem_cons_of_mem _ he))
          (fun e he => hread e (List.mem_cons_of_mem _ he)) h
      rw [htask event List.mem_cons_self] at happends
      refine ⟨l ++ l', List.replicate c event ++ all, happends.trans happends', ?_,
        hcopies.cons (hpos rfl) hle⟩
      rw [readEntries, List.map_append, List.map_append, ← hl, ← hl']
      rfl
    · rename_i e r₁ hcall
      cases h
      obtain ⟨l, c, happends, hl, hle, -⟩ := publishEvent_copies hfirst hcall
      rw [htask event List.mem_cons_self] at happends
      exact ⟨l, _, happends, hl, .broken rfl .nil hle⟩
    · cases h

/-- **A batch read back.**  A batch of one task that returns has added entries from which its
events are read, in their order, each between once and `max_retries + 1` times: all of them when it
succeeds, and else those before one that is there some more times or not at all.  A reader
that skips what has the number of the event before it gets the events back, if the numbers of
neighbours differ. -/
theorem batch_read_back {payloads : Set JsonValue} (hP : P.Inverts L payloads)
    {outcomes : ℕ → ℕ → Attempt} {events : List TaskEvent} (htask : ∀ e ∈ events, e.taskId = t)
    (hevents : ∀ e ∈ events, Rfc3339.FourDigitYear e.ts ∧ e.hashPrev ≠ some [] ∧
      e.payload ∈ payloads) {result : Except PublishError (List String)}
    (h : publishBatch checked config L outcomes events r = (some result, r')) :
    ∃ l all, r.Appends r' (eventStreamKey t) l ∧ readEntries P l = all.map .ok ∧
      Copies (maxCopies config) events result all ∧
      (result.isOk = true → events.IsChain (fun a b => a.seq ≠ b.seq) →
        all.destutter (fun a b => a.seq ≠ b.seq) = events) := by
  have hread : ∀ e ∈ events, ReadsBack L P e := fun e he =>
    deserializeEvent_serializeEvent hP (hevents e he).1 (hevents e he).2.1 (hevents e he).2.2
  obtain ⟨l, all, happends, hl, hcopies⟩ : ∃ l all, r.Appends r' (eventStreamKey t) l ∧
      readEntries P l = all.map .ok ∧ Copies (maxCopies config) events result all := by
    cases events with
    | nil =>
      cases h
      exact ⟨[], [], Redis.Appends.refl _ _, rfl, .complete .nil⟩
    | cons first events =>
      have hsame : ((first :: events).all fun e => decide (e.taskId = first.taskId)) = true := by
        rw [List.all_eq_true]
        intro e he
        exact decide_eq_true ((htask e he).trans (htask first List.mem_cons_self).symm)
      simp only [publishBatch, hsame, if_true] at h
      exact publishLoop_copies htask hread h
  refine ⟨l, all, happends, hl, hcopies, ?_⟩
  intro hok hchain
  cases hcopies with
  | complete repeated => exact repeated.destutter_eq (fun _ h => h rfl) hchain
  | broken => cases hok

end ReadBack

/-- Two events of a task. -/
def sampleBatch : List TaskEvent := [sampleEvent, { sampleEvent with seq := 43 }]

/-- Both events are added twice, and a reader gets them back. -/
theorem batch_read_back_lostThenAccepted : ∃ r l, ∃ all : List TaskEvent,
    publishBatch false {} Libs.printing (fun _ => lostThenAccepted) sampleBatch
      (Redis.empty (κ := ℕ)) = (some (.ok ["2-0", "2-0"]), r) ∧
    Redis.empty.Appends r (eventStreamKey 1) l ∧ l.length = 4 ∧
    readEntries EventParsers.sample l = all.map .ok ∧
    all.destutter (fun a b => a.seq ≠ b.seq) = sampleBatch := by
  have hobs : (publishBatch false {} Libs.printing (fun _ => lostThenAccepted) sampleBatch
        (Redis.empty (κ := ℕ))).1 = some (.ok ["2-0", "2-0"]) ∧
      ((publishBatch false {} Libs.printing (fun _ => lostThenAccepted) sampleBatch
        (Redis.empty (κ := ℕ))).2.streams (eventStreamKey 1)).length = 4 := by decide +kernel
  cases hp : publishBatch false {} Libs.printing (fun _ => lostThenAccepted) sampleBatch
      (Redis.empty (κ := ℕ)) with
  | mk result r =>
    rw [hp] at hobs
    obtain ⟨rfl, hlength⟩ := hobs
    have htask : ∀ e ∈ sampleBatch, e.taskId = 1 := by decide
    have hevents : ∀ e ∈ sampleBatch, Rfc3339.FourDigitYear e.ts ∧ e.hashPrev ≠ some [] ∧
        e.payload ∈ ({.object []} : Set JsonValue) := by
      intro e he
      simp only [sampleBatch, List.mem_cons, List.not_mem_nil, or_false] at he
      rcases he with rfl | rfl <;> exact ⟨by decide, by simp [sampleEvent], rfl⟩
    obtain ⟨l, all, happends, hl, -, hskip⟩ :=
      batch_read_back EventParsers.inverts_sample htask hevents hp
    refine ⟨r, l, all, rfl, happends, ?_, hl, hskip rfl (by decide)⟩
    rw [show r.streams = _ from happends, Function.update_self] at hlength
    exact hlength

end StreamWriter

end AxonTask
