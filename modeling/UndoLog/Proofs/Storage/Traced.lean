import UndoLog.Storage.Faulty

/-!
# Storage that fails on schedule, with a trace

Every call of a storage that fails on schedule is written down, and whether a fault was due. Of
calls that are to be made one after another, those up to the first with a fault are made, and no
others: `attempt` says what they leave.
-/

namespace UndoLog

/-- A call of a storage. -/
inductive StorageCall
  | size
  | read (offset length : Nat)
  | append (data : Bytes)
  | flush
  deriving DecidableEq, Repr

/-- The call is a size call or a read. -/
def StorageCall.IsQuery : StorageCall → Prop
  | .size | .read .. => True
  | .append _ | .flush => False

/-- A size call is a query. -/
theorem StorageCall.isQuery_size : StorageCall.size.IsQuery := trivial

/-- A read is a query. -/
theorem StorageCall.isQuery_read (offset length : Nat) :
    (StorageCall.read offset length).IsQuery := trivial

/-- A call that was made, and whether the schedule made it fail. -/
structure TracedCall where
  call : StorageCall
  faulted : Bool
  deriving DecidableEq, Repr

namespace FaultyStorage

/-- The schedule makes the next call fail. -/
def isDue (f : FaultyStorage) : StorageCall → Bool
  | .size => f.sizeCount ∈ f.plan.sizes
  | .read .. => f.readLog.length ∈ f.plan.reads
  | .append _ => f.appendCount ∈ f.plan.appends
  | .flush => f.flushCount ∈ f.plan.flushes

/-- The storage after a call. -/
def after (f : FaultyStorage) : StorageCall → FaultyStorage
  | .size => (Storage.size f).2
  | .read offset length => (Storage.readAt f offset length).2
  | .append data => (Storage.append f data).2
  | .flush => (Storage.flush f).2

/-- A call keeps the schedule. -/
@[simp] theorem plan_after (f : FaultyStorage) (call : StorageCall) :
    (f.after call).plan = f.plan := by
  cases call
  all_goals
    simp only [after, Storage.size, Storage.readAt, Storage.append, Storage.flush]
    split <;> rfl

/-- A query keeps the bytes. -/
theorem data_after {call : StorageCall} (h : call.IsQuery) (f : FaultyStorage) :
    (f.after call).data = f.data := by
  cases call with
  | size =>
    simp only [after, Storage.size]
    split <;> rfl
  | read offset length =>
    simp only [after, Storage.readAt]
    split <;> rfl
  | append data => exact h.elim
  | flush => exact h.elim

end FaultyStorage

/-- A storage that fails on schedule, and the calls that were made on it, oldest first. -/
structure TracedStorage where
  storage : FaultyStorage
  trace : List TracedCall := []
  deriving DecidableEq, Repr

namespace TracedStorage

variable {t : TracedStorage}

/-- The storage after a call, which is added to the trace. -/
def after (t : TracedStorage) (call : StorageCall) : TracedStorage :=
  ⟨t.storage.after call, t.trace ++ [⟨call, t.storage.isDue call⟩]⟩

instance : Storage TracedStorage where
  size t := ((Storage.size t.storage).1, t.after .size)
  readAt t offset length :=
    ((Storage.readAt t.storage offset length).1, t.after (.read offset length))
  append t data := ((Storage.append t.storage data).1, t.after (.append data))
  flush t := ((Storage.flush t.storage).1, t.after .flush)
  length_readAt t := Storage.length_readAt t.storage

/-- The size is told unless a fault is due, if the plan claims no other size. -/
theorem size_eq (h : t.storage.plan.claimedSize? = none) :
    Storage.size t =
      (if t.storage.isDue .size then .error t.storage.plan.error else .ok t.storage.data.length,
        t.after .size) := by
  simp only [Storage.size, FaultyStorage.isDue, decide_eq_true_eq, h, Option.getD_none]
  split <;> rfl

/-- A read is that of the bytes unless a fault is due. -/
theorem readAt_eq (t : TracedStorage) (offset length : Nat) :
    Storage.readAt t offset length =
      (if t.storage.isDue (.read offset length) then .error t.storage.plan.error
        else t.storage.data.read offset length, t.after (.read offset length)) := by
  simp only [Storage.readAt, FaultyStorage.isDue, decide_eq_true_eq]
  split <;> rfl

/-- Makes calls one after another, up to the first that is due to fail, and tells whether there was
none. -/
def attempt : List StorageCall → TracedStorage → Bool × TracedStorage
  | [], t => (true, t)
  | call :: rest, t =>
    if t.storage.isDue call then (false, t.after call) else attempt rest (t.after call)

/-- An attempt keeps the schedule. -/
theorem plan_attempt (calls : List StorageCall) (t : TracedStorage) :
    (attempt calls t).2.storage.plan = t.storage.plan := by
  induction calls generalizing t with
  | nil => rfl
  | cons call rest ih =>
    simp only [attempt]
    split
    · exact t.storage.plan_after call
    · rw [ih]
      exact t.storage.plan_after call

/-- An attempt of queries keeps the bytes. -/
theorem data_attempt {calls : List StorageCall} (h : ∀ call ∈ calls, call.IsQuery)
    (t : TracedStorage) : (attempt calls t).2.storage.data = t.storage.data := by
  induction calls generalizing t with
  | nil => rfl
  | cons call rest ih =>
    obtain ⟨hcall, hrest⟩ := List.forall_mem_cons.mp h
    simp only [attempt]
    split
    · exact FaultyStorage.data_after hcall t.storage
    · rw [ih hrest]
      exact FaultyStorage.data_after hcall t.storage

private theorem isDue_of_empty {f : FaultyStorage} (h : f.plan = {}) (call : StorageCall) :
    f.isDue call = false := by
  cases call <;> simp [FaultyStorage.isDue, h]

/-- An attempt on an empty schedule has no fault. -/
theorem attempt_of_empty (h : t.storage.plan = {}) (calls : List StorageCall) :
    (attempt calls t).1 = true := by
  induction calls generalizing t with
  | nil => rfl
  | cons call rest ih =>
    simp only [attempt, isDue_of_empty h]
    exact ih ((t.storage.plan_after call).trans h)

/-- An attempt without a fault traces all the calls. -/
theorem trace_attempt_of_true {calls : List StorageCall} (h : (attempt calls t).1 = true) :
    (attempt calls t).2.trace = t.trace ++ calls.map (⟨·, false⟩) := by
  induction calls generalizing t with
  | nil => exact (List.append_nil _).symm
  | cons call rest ih =>
    simp only [attempt] at h ⊢
    split at h
    · cases h
    · next hdue =>
      rw [if_neg hdue, ih h]
      simp [after, hdue]

/-- An attempt with a fault traces a prefix of the calls, of which only the last failed. -/
theorem trace_attempt_of_false {calls : List StorageCall} (h : (attempt calls t).1 = false) :
    ∃ made last rest, calls = made ++ last :: rest ∧
      (attempt calls t).2.trace = t.trace ++ (made.map (⟨·, false⟩) ++ [⟨last, true⟩]) := by
  induction calls generalizing t with
  | nil => cases h
  | cons call rest ih =>
    simp only [attempt] at h ⊢
    split at h
    · next hdue =>
      refine ⟨[], call, rest, rfl, ?_⟩
      rw [if_pos hdue]
      simp [after, hdue]
    · next hdue =>
      obtain ⟨made, last, others, rfl, htrace⟩ := ih h
      refine ⟨call :: made, last, others, rfl, ?_⟩
      rw [if_neg hdue, htrace]
      simp [after, hdue]

end TracedStorage
end UndoLog
