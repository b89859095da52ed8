import AxonTask.Shared.EventFields
import AxonTask.Shared.StreamWriter

/-!
# Publishing events (`axontask-shared/src/redis/stream_writer.rs`)

`publish_event` serializes an event and adds it to the stream of its task; `publish_batch`
publishes the events of one task one after another.  An attempt whose reply is lost has
added its entry, and the next attempt adds another one, so a call adds exactly one entry
when it succeeds, and none when it fails, exactly when no reply is lost among its attempts.
-/

namespace AxonTask

open Lib

/-- The errors of `StreamWriterError` that publishing an event can lead to. -/
inductive PublishError
  | serializationError (error : SerializationError)
  | writeFailed (attempts : UInt32) (lastError : String)
deriving DecidableEq, Repr

namespace StreamWriter

section Publish

variable {κ : Type*} (checked : Bool) (config : StreamWriterConfig) (L : Libs)

/-- `StreamWriter::publish_event`; `none` when the call does not return. -/
def publishEvent (outcome : ℕ → Attempt) (event : TaskEvent) (r : Redis κ) :
    Option (Except PublishError String) × Redis κ :=
  match serializeEvent L event with
  | .error e => (some (.error (.serializationError e)), r)
  | .ok fields =>
    let streamKey := eventStreamKey event.taskId
    let (result, r) := xaddWithRetry checked config outcome streamKey fields r
    match result with
    | .ok streamId => (some (.ok streamId), r)
    | .error lastError => (some (.error (.writeFailed (config.maxRetries + 1) lastError)), r)
    | .noResult => (none, r)

variable (outcome : ℕ → ℕ → Attempt)

/-- The loop of `publish_batch`, with the number of the next event and the identifiers so
far. -/
def publishLoop : ℕ → List TaskEvent → List String → Redis κ →
    Option (Except PublishError (List String)) × Redis κ
  | _, [], streamIds, r => (some (.ok streamIds), r)
  | i, event :: events, streamIds, r =>
    match publishEvent checked config L (outcome i) event r with
    | (some (.ok streamId), r) => publishLoop (i + 1) events (streamIds ++ [streamId]) r
    | (some (.error e), r) => (some (.error e), r)
    | (none, r) => (none, r)

/-- `StreamWriter::publish_batch`, with the outcomes of the attempts for each event. -/
def publishBatch (events : List TaskEvent) (r : Redis κ) :
    Option (Except PublishError (List String)) × Redis κ :=
  match events with
  | [] => (some (.ok []), r)
  | first :: _ =>
    if events.all fun e => decide (e.taskId = first.taskId) then
      publishLoop checked config L outcome 0 events [] r
    else
      (some (.error (.writeFailed 1 "All events in batch must have the same task_id")), r)

end Publish

/-! ### The attempts of a call -/

end StreamWriter

namespace Attempt

/-- The entries that an attempt leaves in the stream. -/
def entries (fields : List (String × String)) : Attempt → List StreamEntry
  | accepted streamId | replyLost streamId _ => [⟨streamId, fields⟩]
  | refused _ => []

/-- The reply of the attempt is lost. -/
def isLost : Attempt → Bool
  | replyLost .. => true
  | _ => false

/-- The attempt ends the call. -/
def isAccepted : Attempt → Bool
  | accepted _ => true
  | _ => false

/-- The attempts that a call makes: up to the first accepted one, and at most `remaining`. -/
def made (outcome : ℕ → Attempt) : (remaining attempt : ℕ) → List Attempt
  | 0, _ => []
  | remaining + 1, attempt =>
    if (outcome attempt).isAccepted then [outcome attempt]
    else outcome attempt :: made outcome remaining (attempt + 1)

/-- Attempts that fail leave no entry exactly when no reply is lost. -/
lemma flatMap_entries_eq_nil_iff {l : List Attempt} (h : ∀ a ∈ l, a.isAccepted = false)
    (fields : List (String × String)) :
    l.flatMap (entries fields) = [] ↔ ∀ a ∈ l, a.isLost = false := by
  rw [List.flatMap_eq_nil_iff]
  refine forall₂_congr ?_
  intro a ha
  cases a with
  | accepted streamId => exact absurd (h _ ha) (by simp [isAccepted])
  | refused e => simp [entries, isLost]
  | replyLost streamId e => simp [entries, isLost]

end Attempt

namespace StreamWriter

section Attempts

variable {κ : Type*} {checked : Bool} {config : StreamWriterConfig} {outcome : ℕ → Attempt}
  {streamKey : String} {fields : List (String × String)}

/-- What a call that returns makes of its attempts: the entries they leave, and success
exactly when the last of them is accepted. -/
structure Leaves (r : Redis κ) (streamKey : String) (fields : List (String × String))
    (made : List Attempt) (p : Retried × Redis κ) : Prop where
  appends : r.Appends p.2 streamKey (made.flatMap (Attempt.entries fields))
  result : (∃ l id, made = l ++ [.accepted id] ∧ (∀ a ∈ l, a.isAccepted = false) ∧
      p.1 = .ok id) ∨ (∀ a ∈ made, a.isAccepted = false) ∧ ∃ e, p.1 = .error e

/-- A failed attempt before the others. -/
lemma Leaves.cons {r r' : Redis κ} {made : List Attempt} {a : Attempt} {p : Retried × Redis κ}
    (h : Leaves r' streamKey fields made p) (ha : a.isAccepted = false)
    (hr : r.Appends r' streamKey (a.entries fields)) : Leaves r streamKey fields (a :: made) p := by
  refine ⟨by simpa only [List.flatMap_cons] using hr.trans h.appends, ?_⟩
  rcases h.result with ⟨l, id, rfl, hl, hp⟩ | ⟨hall, hp⟩
  · refine Or.inl ⟨a :: l, id, rfl, ?_, hp⟩
    intro b hb
    rcases List.mem_cons.1 hb with rfl | hb
    · exact ha
    · exact hl b hb
  · refine Or.inr ⟨?_, hp⟩
    intro b hb
    rcases List.mem_cons.1 hb with rfl | hb
    · exact ha
    · exact hall b hb

/-- After a failed attempt the loop goes on, unless the call does not return. -/
lemma xaddLoop_succ_of_fail {remaining attempt : ℕ} {lastError : Option String} {r : Redis κ}
    (hfail : (outcome attempt).isAccepted = false)
    (h : (xaddLoop checked config outcome streamKey fields (remaining + 1) attempt lastError r).1 ≠
      .noResult) :
    ∃ e r', r.Appends r' streamKey ((outcome attempt).entries fields) ∧
      xaddLoop checked config outcome streamKey fields (remaining + 1) attempt lastError r =
        xaddLoop checked config outcome streamKey fields remaining (attempt + 1) (some e) r' := by
  rw [xaddLoop] at h ⊢
  cases houtcome : outcome attempt with
  | accepted streamId => simp [houtcome, Attempt.isAccepted] at hfail
  | refused e =>
    simp only [houtcome] at h ⊢
    refine ⟨e, r, Redis.Appends.refl r streamKey, ?_⟩
    split at h
    · exact absurd rfl h
    · rename_i hwrap
      split at h
      · exact absurd rfl h
      · rename_i hpanic
        rw [if_neg hwrap, if_neg hpanic]
  | replyLost streamId e =>
    simp only [houtcome] at h ⊢
    refine ⟨e, r.xadd streamKey ⟨streamId, fields⟩, r.appends_xadd streamKey _, ?_⟩
    split at h
    · exact absurd rfl h
    · rename_i hwrap
      split at h
      · exact absurd rfl h
      · rename_i hpanic
        rw [if_neg hwrap, if_neg hpanic]

/-- **Spec of the loop.** -/
lemma leaves_xaddLoop {remaining attempt : ℕ} {lastError : Option String} {r : Redis κ}
    (h : (xaddLoop checked config outcome streamKey fields remaining attempt lastError r).1 ≠
      .noResult) :
    Leaves r streamKey fields (Attempt.made outcome remaining attempt)
      (xaddLoop checked config outcome streamKey fields remaining attempt lastError r) := by
  induction remaining generalizing attempt lastError r with
  | zero =>
    cases lastError with
    | none => exact absurd rfl h
    | some e => exact ⟨Redis.Appends.refl r streamKey, Or.inr ⟨by simp [Attempt.made], e, rfl⟩⟩
  | succ remaining ih =>
    cases hacc : (outcome attempt).isAccepted with
    | true =>
      cases houtcome : outcome attempt with
      | accepted streamId =>
        rw [Attempt.made, if_pos hacc, xaddLoop]
        simp only [houtcome]
        exact ⟨r.appends_xadd streamKey _, Or.inl ⟨[], streamId, rfl, by simp, rfl⟩⟩
      | refused e => simp [houtcome, Attempt.isAccepted] at hacc
      | replyLost streamId e => simp [houtcome, Attempt.isAccepted] at hacc
    | false =>
      obtain ⟨e, r', hr, hloop⟩ := xaddLoop_succ_of_fail hacc h
      rw [hloop] at h ⊢
      rw [Attempt.made, if_neg (by simp [hacc])]
      exact (ih h).cons hacc hr

end Attempts

/-! ### Exactly one entry for each event -/

section Exactly

variable {κ : Type*} (checked : Bool) (config : StreamWriterConfig) (L : Libs)

/-- No reply is lost among the attempts that a call makes. -/
def RepliesArrive (config : StreamWriterConfig) (outcome : ℕ → Attempt) : Prop :=
  ∀ a ∈ Attempt.made outcome (config.maxRetries.toNat + 1) 0, a.isLost = false

/-- When the call succeeds it has added exactly the entry that it names, and when it fails
it has added none. -/
def PublishedOnce (L : Libs) (event : TaskEvent) (r : Redis κ)
    (p : Option (Except PublishError String) × Redis κ) : Prop :=
  (∀ streamId, p.1 = some (.ok streamId) → ∃ fields, serializeEvent L event = .ok fields ∧
      r.Appends p.2 (eventStreamKey event.taskId) [⟨streamId, fields⟩]) ∧
    ∀ e, p.1 = some (.error e) → r.Appends p.2 (eventStreamKey event.taskId) []

/-- When the batch succeeds it has added exactly one entry for each event, in their order. -/
def BatchOnce (L : Libs) (events : List TaskEvent) (r : Redis κ)
    (p : Option (Except PublishError (List String)) × Redis κ) : Prop :=
  ∀ streamIds, p.1 = some (.ok streamIds) → ∀ taskId, (∀ e ∈ events, e.taskId = taskId) →
    ∃ l : List StreamEntry, r.Appends p.2 (eventStreamKey taskId) l ∧
      List.Forall₂ (fun event entry => serializeEvent L event = .ok entry.fields) events l ∧
      l.map StreamEntry.id = streamIds

variable {checked config L} {outcome : ℕ → Attempt} {event : TaskEvent} {r r' : Redis κ}

/-- A call of which the attempts are known. -/
lemma leaves_publishEvent {fields : Fields} (hfields : serializeEvent L event = .ok fields)
    (h : (publishEvent checked config L outcome event r).1 ≠ none) : ∃ p : Retried × Redis κ,
    Leaves r (eventStreamKey event.taskId) fields
        (Attempt.made outcome (config.maxRetries.toNat + 1) 0) p ∧
      (∀ streamId, p.1 = .ok streamId →
        publishEvent checked config L outcome event r = (some (.ok streamId), p.2)) ∧
      ∀ e, p.1 = .error e → publishEvent checked config L outcome event r =
        (some (.error (.writeFailed (config.maxRetries + 1) e)), p.2) := by
  simp only [publishEvent, hfields] at h ⊢
  cases hp : xaddWithRetry checked config outcome (eventStreamKey event.taskId) fields r with
  | mk result r' =>
    simp only [hp] at h ⊢
    refine ⟨(result, r'), ?_, ?_, ?_⟩
    · have hne : (xaddWithRetry checked config outcome (eventStreamKey event.taskId) fields r).1 ≠
          .noResult := by
        rw [hp]
        rintro rfl
        exact h rfl
      have hleaves := leaves_xaddLoop hne
      rw [xaddWithRetry] at hp
      rwa [hp] at hleaves
    · rintro streamId rfl
      rfl
    · rintro e rfl
      rfl

/-- **Spec of a call that succeeds**: before the entry that it names it leaves those of the
lost replies. -/
lemma publishEvent_ok {streamId : String}
    (h : publishEvent checked config L outcome event r = (some (.ok streamId), r')) :
    ∃ fields lost, serializeEvent L event = .ok fields ∧
      r.Appends r' (eventStreamKey event.taskId) (lost ++ [⟨streamId, fields⟩]) ∧
      (lost = [] ↔ RepliesArrive config outcome) := by
  cases hfields : serializeEvent L event with
  | error e =>
    rw [publishEvent, hfields] at h
    cases h
  | ok fields =>
    have hsome : (publishEvent checked config L outcome event r).1 ≠ none := by
      rw [h]
      simp
    obtain ⟨p, hleaves, hok, herror⟩ := leaves_publishEvent hfields hsome
    rcases hleaves.result with ⟨l, id, hmade, hl, hp⟩ | ⟨-, e, hp⟩
    · have happends := hleaves.appends
      rw [h] at hok
      have hsame := hok id hp
      simp only [Prod.mk.injEq, Option.some.injEq, Except.ok.injEq] at hsame
      obtain ⟨rfl, rfl⟩ := hsame
      rw [hmade, List.flatMap_append] at happends
      refine ⟨fields, l.flatMap (Attempt.entries fields), rfl,
        by simpa [Attempt.entries] using happends, ?_⟩
      rw [Attempt.flatMap_entries_eq_nil_iff hl, RepliesArrive, hmade]
      simp [Attempt.isLost, or_imp, forall_and]
    · have hsame := herror e hp
      rw [h] at hsame
      simp at hsame

/-- **Exactly one entry or none**, exactly when no reply of the attempts is lost. -/
lemma publishedOnce_iff (h : (publishEvent checked config L outcome event r).1 ≠ none) :
    PublishedOnce L event r (publishEvent checked config L outcome event r) ↔
      (∃ e, serializeEvent L event = .error e) ∨ RepliesArrive config outcome := by
  cases hfields : serializeEvent L event with
  | error e =>
    have hcall : publishEvent checked config L outcome event r =
        (some (.error (.serializationError e)), r) := by rw [publishEvent, hfields]
    rw [hcall]
    exact iff_of_true ⟨by simp, fun _ _ => Redis.Appends.refl r _⟩ (Or.inl ⟨e, rfl⟩)
  | ok fields =>
    rw [or_iff_right (by simp)]
    obtain ⟨p, hleaves, hok, herror⟩ := leaves_publishEvent hfields h
    rcases hleaves.result with ⟨l, id, hmade, hl, hp⟩ | ⟨hall, e, hp⟩
    · obtain ⟨fields', lost, hfields', happends, hlost⟩ := publishEvent_ok (hok id hp)
      rw [hok id hp, ← hlost]
      constructor
      · rintro ⟨honce, -⟩
        obtain ⟨fields'', hfields'', happends'⟩ := honce id rfl
        have heq := happends.eq happends'
        simpa using congrArg List.length heq
      · rintro rfl
        refine ⟨?_, by simp⟩
        rintro _ ⟨⟩
        exact ⟨fields', hfields', happends⟩
    · rw [herror e hp, RepliesArrive, ← Attempt.flatMap_entries_eq_nil_iff hall fields]
      constructor
      · rintro ⟨-, hnone⟩
        exact hleaves.appends.eq (hnone _ rfl)
      · intro hnil
        refine ⟨by simp, fun _ _ => ?_⟩
        have happends := hleaves.appends
        rwa [hnil] at happends

variable {outcomes : ℕ → ℕ → Attempt}

/-- **Spec of a batch that succeeds**: for each event its own entry, and between them those of
the lost replies. -/
lemma publishLoop_ok {taskId : Uuid} {events : List TaskEvent} {i : ℕ}
    {streamIds ids : List String} (htask : ∀ e ∈ events, e.taskId = taskId)
    (h : publishLoop checked config L outcomes i events streamIds r = (some (.ok ids), r')) :
    ∃ own all : List StreamEntry,
      List.Forall₂ (fun event entry => serializeEvent L event = .ok entry.fields) events own ∧
      ids = streamIds ++ own.map StreamEntry.id ∧ r.Appends r' (eventStreamKey taskId) all ∧
      own.length ≤ all.length ∧
      ((∀ k < events.length, RepliesArrive config (outcomes (i + k))) → all = own) ∧
      (all.length = own.length → ∀ k < events.length, RepliesArrive config (outcomes (i + k))) := by
  induction events generalizing i streamIds r with
  | nil =>
    cases h
    exact ⟨[], [], List.Forall₂.nil, by simp, Redis.Appends.refl _ _, le_rfl, fun _ => rfl,
      by simp⟩
  | cons event events ih =>
    simp only [publishLoop] at h
    split at h
    · rename_i streamId r₁ hcall
      obtain ⟨fields, lost, hfields, happends, hlost⟩ := publishEvent_ok hcall
      obtain ⟨own, all, hown, hids, hrest, hle, hall, hlen⟩ :=
        ih (fun e he => htask e (List.mem_cons_of_mem _ he)) h
      rw [htask event List.mem_cons_self] at happends
      refine ⟨⟨streamId, fields⟩ :: own, lost ++ [⟨streamId, fields⟩] ++ all,
        List.Forall₂.cons hfields hown, by simp [hids], happends.trans hrest, ?_, ?_, ?_⟩
      · simp only [List.length_append, List.length_cons, List.length_nil]
        omega
      · intro harrive
        have hfirst := hlost.2 (harrive 0 (by simp))
        have hlater := hall fun k hk => by
          have := harrive (k + 1) (by simpa using hk)
          rwa [← Nat.add_assoc, Nat.add_right_comm] at this
        rw [hfirst, hlater]
        rfl
      · intro heq k hk
        simp only [List.length_append, List.length_cons, List.length_nil] at heq
        cases k with
        | zero => exact hlost.1 (List.length_eq_zero_iff.1 (by omega))
        | succ k =>
          have hlater := hlen (by omega) k (by simpa using hk)
          rwa [Nat.add_right_comm, Nat.add_assoc] at hlater
    · cases h
    · cases h

/-- **One entry for each event, in order**, exactly when no reply of the attempts for any of
them is lost. -/
lemma batchOnce_iff {events : List TaskEvent} {ids : List String}
    (h : (publishBatch checked config L outcomes events r).1 = some (.ok ids)) :
    BatchOnce L events r (publishBatch checked config L outcomes events r) ↔
      ∀ k < events.length, RepliesArrive config (outcomes k) := by
  cases events with
  | nil =>
    refine iff_of_true ?_ (by simp)
    rintro _ ⟨⟩ taskId -
    exact ⟨[], Redis.Appends.refl _ _, List.Forall₂.nil, rfl⟩
  | cons first events =>
    unfold publishBatch at h ⊢
    simp only at h ⊢
    split at h
    · rename_i hsame
      rw [if_pos hsame]
      have htask : ∀ e ∈ first :: events, e.taskId = first.taskId := by
        simpa only [List.all_eq_true, decide_eq_true_eq] using hsame
      cases hp : publishLoop checked config L outcomes 0 (first :: events) [] r with
      | mk result r' =>
        rw [hp] at h
        obtain rfl : result = some (.ok ids) := h
        obtain ⟨own, all, hown, hids, happends, hle, hall, hlen⟩ := publishLoop_ok htask hp
        simp only [Nat.zero_add] at hall hlen
        constructor
        · intro honce
          obtain ⟨l, happends', hl, -⟩ := honce ids rfl first.taskId htask
          refine hlen ?_
          rw [happends.eq happends', ← hl.length_eq, hown.length_eq]
        · intro harrive
          rintro _ ⟨⟩ taskId htask'
          rw [← htask' first List.mem_cons_self, htask first List.mem_cons_self]
          refine ⟨own, ?_, hown, by simp [hids]⟩
          rwa [hall harrive] at happends
    · cases h

variable (checked config L)

/-- **Exactly-once publishing.**  A call of `publish_event` that returns has added exactly the
entry that it names, or none when it fails, and a batch that succeeds exactly one entry for
each event, exactly when no reply is lost among the attempts that are made. -/
theorem publishes_once_iff :
    (∀ (outcome : ℕ → Attempt) (event : TaskEvent) (r : Redis κ),
      (publishEvent checked config L outcome event r).1 ≠ none →
      (PublishedOnce L event r (publishEvent checked config L outcome event r) ↔
        (∃ e, serializeEvent L event = .error e) ∨ RepliesArrive config outcome)) ∧
      ∀ (outcomes : ℕ → ℕ → Attempt) (events : List TaskEvent) (r : Redis κ) (ids : List String),
        (publishBatch checked config L outcomes events r).1 = some (.ok ids) →
        (BatchOnce L events r (publishBatch checked config L outcomes events r) ↔
          ∀ k < events.length, RepliesArrive config (outcomes k)) :=
  ⟨fun _ _ _ h => publishedOnce_iff h, fun _ _ _ _ h => batchOnce_iff h⟩

/-- The reply to the first attempt is lost, and the second attempt is accepted. -/
def lostThenAccepted : ℕ → Attempt
  | 0 => .replyLost "1-0" "connection reset"
  | _ => .accepted "2-0"

end Exactly

/-- The first attempt for each event is refused, and the second one is accepted. -/
def refusedThenAccepted (k : ℕ) : ℕ → Attempt
  | 0 => .refused "LOADING"
  | _ => .accepted (if k = 0 then "1-0" else "2-0")

/-- A batch of two events is published with four attempts, and each event is there once. -/
theorem publishes_once_iff_refusedThenAccepted :
    (publishBatch false {} Libs.printing refusedThenAccepted
        [sampleEvent, { sampleEvent with seq := 43 }] (Redis.empty (κ := ℕ))).1 =
      some (.ok ["1-0", "2-0"]) ∧
    BatchOnce Libs.printing [sampleEvent, { sampleEvent with seq := 43 }] (Redis.empty (κ := ℕ))
      (publishBatch false {} Libs.printing refusedThenAccepted
        [sampleEvent, { sampleEvent with seq := 43 }] Redis.empty) := by
  have hcall : (publishBatch false {} Libs.printing refusedThenAccepted
      [sampleEvent, { sampleEvent with seq := 43 }] (Redis.empty (κ := ℕ))).1 =
      some (.ok ["1-0", "2-0"]) := by decide +kernel
  refine ⟨hcall, ((publishes_once_iff false {} Libs.printing).2 _ _ _ _ hcall).2 ?_⟩
  intro k _ a ha
  have hmade : a = .refused "LOADING" ∨ a = .accepted (if k = 0 then "1-0" else "2-0") := by
    simpa [Attempt.made, refusedThenAccepted, Attempt.isAccepted] using ha
  rcases hmade with rfl | rfl <;> rfl

/-- The call succeeds with one identifier and has added two entries. -/
theorem not_publishedOnce_lostThenAccepted :
    (publishEvent false {} Libs.printing lostThenAccepted sampleEvent
        (Redis.empty (κ := ℕ))).1 = some (.ok "2-0") ∧
      ¬ PublishedOnce Libs.printing sampleEvent Redis.empty
        (publishEvent false {} Libs.printing lostThenAccepted sampleEvent
          (Redis.empty (κ := ℕ))) := by
  have hcall : (publishEvent false {} Libs.printing lostThenAccepted sampleEvent
      (Redis.empty (κ := ℕ))).1 = some (.ok "2-0") := by decide +kernel
  refine ⟨hcall, ?_⟩
  rw [publishedOnce_iff (by simp [hcall])]
  rintro (⟨e, he⟩ | harrive)
  · have hok : (serializeEvent Libs.printing sampleEvent).isOk = true := by decide +kernel
    rw [he] at hok
    cases hok
  · have hlost := harrive (.replyLost "1-0" "connection reset") (by
      simp [Attempt.made, lostThenAccepted, Attempt.isAccepted])
    cases hlost

end StreamWriter

end AxonTask
