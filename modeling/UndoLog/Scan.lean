import UndoLog.Scan.Forward
import UndoLog.Scan.Backward

/-!
# Scans in either direction

Both kinds of scan are started and resumed alike. A scan that is given what it asks for comes nearer
to its end with every read.

UndoJournal specification: section 5.5.
-/

namespace UndoLog

/-- A scan in either direction. -/
inductive Scan
  | forward (scan : ForwardScan)
  | backward (scan : BackwardScan)
  deriving DecidableEq, Repr

/-- A call of a scan. -/
inductive ScanCall
  | start
  | resume (bytes : Bytes)
  deriving DecidableEq, Repr

/-- A call of a scan and its answer. -/
structure ScanEvent where
  call : ScanCall
  result : Except JournalError ScanStep

namespace Scan

/-- The position of a scan. -/
def cursor : Scan → Nat
  | .forward scan => scan.cursor
  | .backward scan => scan.cursor

/-- The scan when it is over. -/
def finish : Scan → Scan
  | .forward scan => .forward { scan with stage := .finished }
  | .backward scan => .backward { scan with stage := .finished }

/-- Checks the position before anything is read. -/
def start : Scan → Except JournalError ScanStep × Scan
  | .forward scan => scan.start.map id .forward
  | .backward scan => scan.start.map id .backward

/-- The bytes that a waiting scan requests. -/
def request : Scan → ReadRequest
  | .forward scan => scan.request
  | .backward scan => scan.request

/-- Gives the scan some bytes. -/
def resume (s : Scan) (bytes : Bytes) : Except JournalError ScanStep × Scan :=
  match s with
  | .forward scan => (scan.resume bytes).map id .forward
  | .backward scan => (scan.resume bytes).map id .backward

/-- Gives the scan some bytes. It is `none` where the call panics because an offset overflows. -/
def resume? (s : Scan) (bytes : Bytes) : Option (Except JournalError ScanStep × Scan) :=
  match s with
  | .forward scan => (scan.resume? bytes).map (Prod.map id .forward)
  | .backward scan => (scan.resume? bytes).map (Prod.map id .backward)

/-- Answers a call. -/
def call (s : Scan) : ScanCall → Except JournalError ScanStep × Scan
  | .start => s.start
  | .resume bytes => s.resume bytes

/-- Answers calls one after another, whatever the answers are. -/
def history : (calls : List ScanCall) → (s : Scan) → List ScanEvent
  | [], _ => []
  | call :: rest, s => ⟨call, (s.call call).1⟩ :: (s.call call).2.history rest

/-- The scan after some calls. -/
def after (s : Scan) (calls : List ScanCall) : Scan := calls.foldl (fun s call => (s.call call).2) s

/-- A bound on the reads before the end of a scan. -/
def rank : Scan → Nat
  | .forward scan => scan.stage.rank
  | .backward scan => scan.stage.rank

/-- A start refuses the position, finds nothing, or requests bytes. Only finding nothing changes the
scan. -/
theorem start_cases (s : Scan) :
    (∃ error, s.start = (.error error, s)) ∨ s.start = (.ok (.done none), s.finish) ∨
      ∃ request, s.start = (.ok (.read request), s) := by
  cases s with
  | forward scan =>
    obtain ⟨error, h⟩ | h | ⟨request, h⟩ := scan.start_cases
    · exact .inl ⟨error, by rw [start, h]; rfl⟩
    · exact .inr (.inl (by rw [start, h]; rfl))
    · exact .inr (.inr ⟨request, by rw [start, h]; rfl⟩)
  | backward scan =>
    obtain ⟨error, h⟩ | h | ⟨request, h⟩ := scan.start_cases
    · exact .inl ⟨error, by rw [start, h]; rfl⟩
    · exact .inr (.inl (by rw [start, h]; rfl))
    · exact .inr (.inr ⟨request, by rw [start, h]; rfl⟩)

/-- A start finds no record. -/
theorem start_ne_found (s next : Scan) (found : Scanned) :
    s.start ≠ (.ok (.done (some found)), next) := by
  obtain ⟨error, h⟩ | h | ⟨request, h⟩ := s.start_cases <;> rw [h] <;> nofun

/-- A start that requests bytes changes nothing. -/
theorem eq_of_start {s next : Scan} {request : ReadRequest}
    (hstart : s.start = (.ok (.read request), next)) : next = s := by
  obtain ⟨error, h⟩ | h | ⟨request, h⟩ := s.start_cases <;> rw [h] at hstart <;> cases hstart
  rfl

/-- A forward resume settles its stage. -/
theorem resume_forward (scan : ForwardScan) (bytes : Bytes) :
    (Scan.forward scan).resume bytes =
      StageResult.settle (finish (.forward scan))
        (fun stage => .forward { scan with stage }) request
        (scan.advance bytes) :=
  StageResult.map_settle _ fun _ => rfl

/-- A backward resume settles its stage. -/
theorem resume_backward (scan : BackwardScan) (bytes : Bytes) :
    (Scan.backward scan).resume bytes =
      StageResult.settle (finish (.backward scan)) (fun stage => .backward { scan with stage })
        request (scan.advance bytes) :=
  StageResult.map_settle _ fun _ => rfl

/-- A resume without overflow is the resume. -/
theorem eq_of_resume? {s : Scan} {bytes : Bytes} {result : Except JournalError ScanStep × Scan}
    (h : s.resume? bytes = some result) : s.resume bytes = result := by
  cases s with
  | forward scan =>
    simp only [resume?, ForwardScan.resume?, Option.map_map, Option.map_eq_some_iff] at h
    obtain ⟨answer, hanswer, rfl⟩ := h
    rw [resume, ForwardScan.resume, ForwardScan.eq_of_advance? hanswer]
    rfl
  | backward scan =>
    simp only [resume?, BackwardScan.resume?, Option.map_map, Option.map_eq_some_iff] at h
    obtain ⟨answer, hanswer, rfl⟩ := h
    rw [resume, BackwardScan.resume, BackwardScan.eq_of_advance? hanswer]
    rfl

/-- A fed scan that requests more is nearer to its end. -/
theorem rank_lt_of_resume {s next : Scan} {bytes : Bytes} {request : ReadRequest}
    (hb : bytes.length = s.request.length)
    (h : s.resume bytes = (.ok (.read request), next)) : next.rank < s.rank := by
  cases s with
  | forward scan =>
    rw [resume_forward, StageResult.settle_eq_read_iff] at h
    obtain ⟨stage, hadvance, rfl, -⟩ := h
    exact ForwardScan.rank_lt_of_advance hb hadvance
  | backward scan =>
    rw [resume_backward, StageResult.settle_eq_read_iff] at h
    obtain ⟨stage, hadvance, rfl, -⟩ := h
    exact BackwardScan.rank_lt_of_advance hb hadvance

/-- A backward scan from `cursor` whose known start is below it. -/
def GoesBelow (cursor : Nat) : Scan → Prop
  | .forward _ => False
  | .backward scan => scan.cursor = cursor ∧ scan.stage.StartsBelow cursor

/-- A backward scan that goes on goes on below the same position. -/
theorem goesBelow_of_resume {s next : Scan} {cursor : Nat} {bytes : Bytes} {request : ReadRequest}
    (hs : s.GoesBelow cursor) (h : s.resume bytes = (.ok (.read request), next)) :
    next.GoesBelow cursor := by
  cases s with
  | forward scan => exact hs.elim
  | backward scan =>
    obtain ⟨rfl, hstage⟩ := hs
    rw [resume_backward, StageResult.settle_eq_read_iff] at h
    obtain ⟨stage, hadvance, rfl, -⟩ := h
    exact ⟨rfl, BackwardScan.startsBelow_of_advance hstage hadvance⟩

/-- A record found backward starts below the position. -/
theorem cursor_lt_of_resume {s next : Scan} {cursor : Nat} {bytes : Bytes} {found : Scanned}
    (hs : s.GoesBelow cursor) (h : s.resume bytes = (.ok (.done (some found)), next)) :
    found.cursor < cursor := by
  cases s with
  | forward scan => exact hs.elim
  | backward scan =>
    obtain ⟨rfl, hstage⟩ := hs
    have hfound : (Scan.resume (.backward scan) bytes).1 = .ok (.done (some found)) := by rw [h]
    rw [resume_backward, StageResult.settle_fst_eq_found_iff] at hfound
    exact BackwardScan.startsBelow_of_advance hstage hfound

end Scan
end UndoLog
