import UndoLog.Proofs.Scan.Course

/-!
# Scans under any calls

A scan may be started and resumed in any order, with any bytes. It is over once it has found its
record, once a resume fails, and once a start tells that there is nothing to find; from then on
every resume is refused and none finds a record. A start that fails, or that asks for bytes, changes
nothing.
-/

namespace UndoLog

namespace ScanEvent

/-- The call found a record. -/
def isFound (event : ScanEvent) : Bool :=
  match event.result with
  | .ok (.done (some _)) => true
  | _ => false

/-- The call ended the scan: a failed resume, or an answer `done`. -/
def IsLast (event : ScanEvent) : Prop :=
  match event.call, event.result with
  | .resume _, .error _ => True
  | _, .ok (.done _) => True
  | _, _ => False

private theorem isLast_of_isFound {event : ScanEvent} (h : event.isFound = true) :
    event.IsLast := by
  obtain ⟨call, result⟩ := event
  unfold isFound at h
  split at h
  · next hresult =>
    cases hresult
    cases call <;> trivial
  · cases h

end ScanEvent

namespace Scan

/-- The scan is finished. -/
def IsOver : Scan → Prop
  | .forward scan => scan.stage = .finished
  | .backward scan => scan.stage = .finished

/-- The results of a call. A start fails and changes nothing, asks for bytes, or ends the scan with
nothing found. A resume fails, finds a record, or asks for bytes; the first two end the scan, and a
scan that is over can only fail. -/
inductive Effect (s : Scan) : ScanCall → Except JournalError ScanStep × Scan → Prop
  | startFails (error : JournalError) : Effect s .start (.error error, s)
  | startAsks (request : ReadRequest) : Effect s .start (.ok (.read request), s)
  | startEnds : Effect s .start (.ok (.done none), s.finish)
  | resumeFails (bytes : Bytes) (error : JournalError)
      (refused : s.IsOver → error = .corruptRecord s.cursor .scanOver) :
      Effect s (.resume bytes) (.error error, s.finish)
  | resumeFinds (bytes : Bytes) (found : Scanned) (live : ¬s.IsOver) :
      Effect s (.resume bytes) (.ok (.done (some found)), s.finish)
  | resumeAsks (bytes : Bytes) (next : Scan) (live : ¬s.IsOver) (same : next.cursor = s.cursor) :
      Effect s (.resume bytes) (.ok (.read next.request), next)

variable {s : Scan} {calls : List ScanCall}

private theorem effect_start (s : Scan) : Effect s .start s.start := by
  obtain ⟨error, h⟩ | h | ⟨request, h⟩ := s.start_cases
  · rw [h]
    exact .startFails error
  · rw [h]
    exact .startEnds
  · rw [h]
    exact .startAsks request

/-- What a resume does, from what its stage makes of the bytes. -/
private theorem effect_settle {Stage : Type} {result : Except JournalError (StageResult Stage)}
    {waiting : Stage → Scan} (bytes : Bytes)
    (hover : s.IsOver → result = .error (.corruptRecord s.cursor .scanOver))
    (hsame : ∀ stage, (waiting stage).cursor = s.cursor) :
    Effect s (.resume bytes) (StageResult.settle s.finish waiting request result) := by
  cases result with
  | error error => exact .resumeFails bytes error fun h => Except.error.inj (hover h)
  | ok result =>
    have hlive : ¬s.IsOver := fun h => nomatch hover h
    cases result with
    | found found => exact .resumeFinds bytes found hlive
    | next stage => exact .resumeAsks bytes (waiting stage) hlive (hsame stage)

private theorem effect_resume (s : Scan) (bytes : Bytes) :
    Effect s (.resume bytes) (s.resume bytes) := by
  cases s with
  | forward scan =>
    rw [resume_forward]
    refine effect_settle bytes (fun hover => ?_) fun _ => rfl
    rw [ForwardScan.advance, show scan.stage = .finished from hover]
    rfl
  | backward scan =>
    rw [resume_backward]
    refine effect_settle bytes (fun hover => ?_) fun _ => rfl
    rw [BackwardScan.advance, show scan.stage = .finished from hover]
    rfl

/-- Every call has one of the effects. -/
theorem effect_call (s : Scan) (call : ScanCall) : Effect s call (s.call call) := by
  cases call with
  | start => exact s.effect_start
  | resume bytes => exact s.effect_resume bytes

private theorem isOver_finish (s : Scan) : s.finish.IsOver := by
  cases s <;> rfl

/-- Finishing a scan keeps its position. -/
@[simp] theorem cursor_finish (s : Scan) : s.finish.cursor = s.cursor := by
  cases s <;> rfl

namespace Effect

variable {call : ScanCall} {result : Except JournalError ScanStep} {next : Scan}

private theorem cursor_eq (h : Effect s call (result, next)) : next.cursor = s.cursor := by
  cases h with
  | startFails | startAsks => rfl
  | startEnds | resumeFails | resumeFinds => exact s.cursor_finish
  | resumeAsks _ _ _ same => exact same

private theorem isOver_of_isOver (h : Effect s call (result, next)) (hover : s.IsOver) :
    next.IsOver := by
  cases h with
  | startFails | startAsks => exact hover
  | startEnds | resumeFails | resumeFinds => exact s.isOver_finish
  | resumeAsks _ _ live _ => exact absurd hover live

private theorem isOver_of_isLast (h : Effect s call (result, next))
    (hlast : ScanEvent.IsLast ⟨call, result⟩) : next.IsOver := by
  cases h with
  | startFails | startAsks | resumeAsks => exact hlast.elim
  | startEnds | resumeFails | resumeFinds => exact s.isOver_finish

private theorem isFound_of_isOver (h : Effect s call (result, next)) (hover : s.IsOver) :
    ScanEvent.isFound ⟨call, result⟩ = false := by
  cases h with
  | startFails | startAsks | startEnds | resumeFails => rfl
  | resumeFinds _ _ live => exact absurd hover live
  | resumeAsks => rfl

private theorem result_of_isOver {bytes : Bytes} (h : Effect s (.resume bytes) (result, next))
    (hover : s.IsOver) : result = .error (.corruptRecord s.cursor .scanOver) := by
  cases h with
  | resumeFails _ _ refused => rw [refused hover]
  | resumeFinds _ _ live => exact absurd hover live
  | resumeAsks _ _ live _ => exact absurd hover live

private theorem eq_of_startFails {error : JournalError} (h : Effect s .start (.error error, next)) :
    next = s := by
  cases h
  rfl

end Effect

private theorem history_append (before rest : List ScanCall) (s : Scan) :
    s.history (before ++ rest) = s.history before ++ (s.after before).history rest := by
  induction before generalizing s with
  | nil => rfl
  | cons call before ih => rw [List.cons_append, history, history, ih]; rfl

private theorem map_call_history (calls : List ScanCall) (s : Scan) :
    (s.history calls).map ScanEvent.call = calls := by
  induction calls generalizing s with
  | nil => rfl
  | cons call rest ih => rw [history, List.map_cons, ih]

/-- A finished scan finds nothing and refuses every resume. -/
theorem history_of_isOver (hover : s.IsOver) {event : ScanEvent} (h : event ∈ s.history calls) :
    event.isFound = false ∧ ∀ bytes, event.call = .resume bytes →
      event.result = .error (.corruptRecord s.cursor .scanOver) := by
  induction calls generalizing s with
  | nil => cases h
  | cons call rest ih =>
    have heffect := s.effect_call call
    rcases List.mem_cons.mp h with rfl | hrest
    · refine ⟨heffect.isFound_of_isOver hover, ?_⟩
      rintro bytes rfl
      exact heffect.result_of_isOver hover
    · rw [← heffect.cursor_eq]
      exact ih (heffect.isOver_of_isOver hover) hrest

/-- A history finds at most one record. -/
theorem countP_isFound_history (calls : List ScanCall) (s : Scan) :
    (s.history calls).countP ScanEvent.isFound ≤ 1 := by
  induction calls generalizing s with
  | nil => exact Nat.zero_le 1
  | cons call rest ih =>
    rw [history, List.countP_cons]
    split
    · next hfound =>
      have hover := (s.effect_call call).isOver_of_isLast (ScanEvent.isLast_of_isFound hfound)
      have hnone : ((s.call call).2.history rest).countP ScanEvent.isFound = 0 := by
        rw [List.countP_eq_zero]
        intro event hevent
        rw [(history_of_isOver hover hevent).1]
        exact Bool.false_ne_true
      exact Nat.le_of_eq (congrArg (· + 1) hnone)
    · exact ih (s.call call).2

/-- After a last event nothing is found and every resume is refused. -/
theorem history_after_isLast {before rest : List ScanEvent} {event : ScanEvent}
    (h : s.history calls = before ++ event :: rest) (hlast : event.IsLast) {later : ScanEvent}
    (hlater : later ∈ rest) :
    later.isFound = false ∧ ∀ bytes, later.call = .resume bytes →
      later.result = .error (.corruptRecord s.cursor .scanOver) := by
  induction before generalizing s calls with
  | nil =>
    cases calls with
    | nil => cases h
    | cons call others =>
      obtain ⟨rfl, rfl⟩ := List.cons.inj h
      have heffect := s.effect_call call
      rw [← heffect.cursor_eq]
      exact history_of_isOver (heffect.isOver_of_isLast hlast) hlater
  | cons first before ih =>
    cases calls with
    | nil => cases h
    | cons call others =>
      obtain ⟨-, hrest⟩ := List.cons.inj h
      rw [← (s.effect_call call).cursor_eq]
      exact ih hrest

private theorem history_start_of_error {before : List ScanCall} {error : JournalError}
    (h : (s.after before).start.1 = .error error) (rest : List ScanCall) :
    ∃ late, s.history (before ++ .start :: rest) =
        s.history before ++ ⟨.start, .error error⟩ :: late ∧
      s.history (before ++ rest) = s.history before ++ late := by
  have heffect := (s.after before).effect_start
  have hstart : (s.after before).start = (.error error, (s.after before).start.2) :=
    Prod.ext h rfl
  rw [hstart] at heffect
  refine ⟨(s.after before).history rest, ?_, history_append before rest s⟩
  rw [history_append, history, call, hstart, heffect.eq_of_startFails]

end Scan

private theorem ScanTask.cursor_scan (task : ScanTask) (journalLength : Nat) :
    (task.scan journalLength).cursor = task.cursor := by
  cases task <;> rfl

/-- For any calls in any order and with any bytes, a scan finds at most one record. After a failed
resume, a found record or a start with nothing to find it finds nothing more, and refuses every
resume because the scan is over. A failed start does not change the answers to later calls. -/
theorem scan_finds_at_most_once (task : ScanTask) (journalLength : Nat) (calls : List ScanCall) :
    let scan := task.scan journalLength
    (scan.history calls).map ScanEvent.call = calls ∧
      (scan.history calls).countP ScanEvent.isFound ≤ 1 ∧
      (∀ before event rest, scan.history calls = before ++ event :: rest → event.IsLast →
        ∀ later ∈ rest, later.isFound = false ∧ ∀ bytes, later.call = .resume bytes →
          later.result = .error (.corruptRecord task.cursor .scanOver)) ∧
      ∀ before rest error, calls = before ++ .start :: rest →
        (scan.after before).start.1 = .error error →
          ∃ late, scan.history calls = scan.history before ++ ⟨.start, .error error⟩ :: late ∧
            scan.history (before ++ rest) = scan.history before ++ late := by
  intro scan
  refine ⟨scan.map_call_history calls, scan.countP_isFound_history calls, ?_, ?_⟩
  · intro before event rest hsplit hlast later hlater
    rw [← task.cursor_scan journalLength]
    exact Scan.history_after_isLast hsplit hlast hlater
  · rintro before rest error rfl herror
    exact Scan.history_start_of_error herror rest

/-- A scan resumed with a header before it is started finds the record, and refuses a second resume
even after a start that asked for bytes. A scan whose start found no room for a trailer answers a
resume as if it had not been started. -/
theorem scan_finds_at_most_once_of_stray_calls :
    let header : Bytes := [0, 0, 0, 0, 0, 0, 0, 0, 0, 0, 0]
    let scan := (ScanTask.forward 8 0 false).scan 33
    let short := (ScanTask.backward 20).scan 40
    (scan.history [.resume header, .start, .resume header]).map ScanEvent.isFound =
        [true, false, false] ∧
      (scan.history [.resume header, .start, .resume header])[2]? =
        some ⟨.resume header, .error (.corruptRecord 8 .scanOver)⟩ ∧
      ∃ late, short.history [.start, .resume header] =
          ⟨.start, .error (.corruptRecord 20 .noRoomForTrailer)⟩ :: late ∧
        short.history [.resume header] = late := by
  intro header scan short
  obtain ⟨-, -, hlast, -⟩ :=
    scan_finds_at_most_once (.forward 8 0 false) 33 [.resume header, .start, .resume header]
  obtain ⟨-, -, -, hstart⟩ :=
    scan_finds_at_most_once (.backward 20) 40 [.start, .resume header]
  let later := ((scan.call (.resume header)).2.call .start).2
  have hfound : (scan.history [.resume header, .start, .resume header]).map ScanEvent.isFound =
      [true, false, false] := by decide +kernel
  have hfinal : ScanEvent.IsLast ⟨.resume header, (scan.call (.resume header)).1⟩ :=
    ScanEvent.isLast_of_isFound (List.cons.inj hfound).1
  have hrefused : (later.call (.resume header)).1 = .error (.corruptRecord 8 .scanOver) :=
    (hlast [] _ _ rfl hfinal ⟨.resume header, (later.call (.resume header)).1⟩
      (List.mem_cons_of_mem _ (List.mem_singleton.mpr rfl))).2 header rfl
  refine ⟨hfound, ?_, hstart [] [.resume header] _ rfl rfl⟩
  show some (ScanEvent.mk (.resume header) (later.call (.resume header)).1) = _
  rw [hrefused]

end UndoLog
