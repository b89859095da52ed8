import AxonTask.Shared.Basic

/-!
# Names in Redis (`axontask-shared/src/events/serialization.rs`)

The keys under which the streams of a task are stored; they end in the identifier of the
task.  No two of them are the same.
-/

namespace AxonTask

/-- The hexadecimal digits of a UUID. -/
def Uuid.hexDigits (id : Uuid) : List Char :=
  (List.range 32).map fun i => Nat.digitChar (id.toNat / 16 ^ (31 - i) % 16)

/-- `impl Display for Uuid`: the digits in five groups. -/
def Uuid.display (id : Uuid) : String :=
  let digits := Uuid.hexDigits id
  String.ofList <|
    digits.take 8 ++ [ '-' ] ++ (digits.drop 8).take 4 ++ [ '-' ] ++ (digits.drop 12).take 4 ++
      [ '-' ] ++ (digits.drop 16).take 4 ++ [ '-' ] ++ digits.drop 20

/-- `event_stream_key`. -/
def eventStreamKey (taskId : Uuid) : String := "events:" ++ Uuid.display taskId

/-- `control_stream_key`. -/
def controlStreamKey (taskId : Uuid) : String := "ctrl:" ++ Uuid.display taskId

/-- `heartbeat_key`. -/
def heartbeatKey (taskId : Uuid) : String := "hb:" ++ Uuid.display taskId

/-! ### No two keys are the same -/

/-- The hexadecimal digits determine a number. -/
lemma eq_of_hexDigits_eq {n a b : ℕ} (ha : a < 16 ^ n) (hb : b < 16 ^ n)
    (h : ∀ i < n, a / 16 ^ i % 16 = b / 16 ^ i % 16) : a = b := by
  induction n generalizing a b with
  | zero => omega
  | succ n ih =>
    have hlow : a % 16 = b % 16 := by simpa using h 0 (Nat.succ_pos n)
    have hhigh : a / 16 = b / 16 := by
      refine ih (by omega) (by omega) ?_
      intro i hi
      simpa [Nat.div_div_eq_div_mul, Nat.pow_succ'] using h (i + 1) (by omega)
    omega

lemma digitChar_inj : ∀ a < 16, ∀ b < 16, Nat.digitChar a = Nat.digitChar b → a = b := by
  decide

lemma Uuid.hexDigits_injective : Function.Injective Uuid.hexDigits := by
  intro id id' h
  refine BitVec.eq_of_toNat_eq (eq_of_hexDigits_eq (n := 32) id.isLt id'.isLt ?_)
  intro i hi
  -- the digit of 16 ^ i stands at the place 31 - i
  have hdigit := List.map_inj_left.1 h (31 - i) (List.mem_range.2 (by omega))
  rw [Nat.sub_sub_self (by omega)] at hdigit
  exact digitChar_inj _ (Nat.mod_lt _ (by decide)) _ (Nat.mod_lt _ (by decide)) hdigit

lemma Uuid.ne_of_mem_hexDigits {id : Uuid} {c : Char} (h : c ∈ Uuid.hexDigits id) : c ≠ '-' := by
  obtain ⟨i, -, rfl⟩ := List.mem_map.1 h
  have hne : ∀ d < 16, Nat.digitChar d ≠ '-' := by decide
  exact hne _ (Nat.mod_lt _ (by decide))

/-- The digits are what is left without the hyphens. -/
lemma Uuid.filter_display (id : Uuid) :
    (Uuid.display id).toList.filter (fun c => c ≠ '-') = Uuid.hexDigits id := by
  have hall : ∀ l : List Char, (∀ c ∈ l, c ∈ Uuid.hexDigits id) →
      l.filter (fun c => c ≠ '-') = l := by
    intro l hl
    rw [List.filter_eq_self]
    intro c hc
    simpa using Uuid.ne_of_mem_hexDigits (hl c hc)
  have hgroup : ∀ m n, ∀ c ∈ ((Uuid.hexDigits id).drop m).take n, c ∈ Uuid.hexDigits id :=
    fun m n c hc => List.mem_of_mem_drop (List.mem_of_mem_take hc)
  have hjoin : ∀ m n, ((Uuid.hexDigits id).drop m).take n ++ (Uuid.hexDigits id).drop (m + n) =
      (Uuid.hexDigits id).drop m := by
    intro m n
    rw [← List.drop_drop, List.take_append_drop]
  have hhyphen : ['-'].filter (fun c => decide (c ≠ '-')) = [] := by decide
  rw [Uuid.display, String.toList_ofList]
  simp only [List.filter_append, hhyphen, List.nil_append, List.append_assoc]
  rw [hall _ fun c hc => List.mem_of_mem_take hc, hall _ (hgroup 8 4), hall _ (hgroup 12 4),
    hall _ (hgroup 16 4), hall _ fun c hc => List.mem_of_mem_drop hc, hjoin 16 4, hjoin 12 4,
    hjoin 8 4, List.take_append_drop]

lemma Uuid.display_injective : Function.Injective Uuid.display := by
  intro id id' h
  refine Uuid.hexDigits_injective ?_
  rw [← Uuid.filter_display id, h, Uuid.filter_display]

/-- Two keys are the same only when they are of one kind and of one task. -/
theorem streamKeys_disjoint (t u : Uuid) :
    (eventStreamKey t = eventStreamKey u ↔ t = u) ∧
      (controlStreamKey t = controlStreamKey u ↔ t = u) ∧
      (heartbeatKey t = heartbeatKey u ↔ t = u) ∧ eventStreamKey t ≠ controlStreamKey u ∧
      eventStreamKey t ≠ heartbeatKey u ∧ controlStreamKey t ≠ heartbeatKey u := by
  have hinj : ∀ kind : String, kind ++ Uuid.display t = kind ++ Uuid.display u ↔ t = u := by
    intro kind
    rw [String.append_right_inj, Uuid.display_injective.eq_iff]
  refine ⟨hinj _, hinj _, hinj _, ?_, ?_, ?_⟩
  all_goals
    intro h
    have hfirst := congrArg (fun s : String => s.toList.head?) h
    simp [eventStreamKey, controlStreamKey, heartbeatKey] at hfirst

example : controlStreamKey 0x67e5504410b1426f9247bb680e5fe0c8 =
    "ctrl:67e55044-10b1-426f-9247-bb680e5fe0c8" := by decide +kernel

end AxonTask
