import UndoLog.Proofs.Scan.Backward
import UndoLog.Proofs.Scan.Forward
import UndoLog.Proofs.Scan.Polled
import UndoLog.Proofs.Tiling

/-!
# The ranges that a scan asks for

A scan that is given the windows it asks for asks for one range after another. Over the payload
these are chunks that lie side by side from left to right, all of the same length but the last.
-/

namespace UndoLog

/-- The positions of a range. -/
def Span.ofRange (range : Nat × Nat) : Span := ⟨range.1, range.1 + range.2⟩

/-- The chunks of a range. -/
def chunksFrom (offset length : Nat) : List (Nat × Nat) :=
  if 0 < length then
    (offset, min length Layout.chunkLength) ::
      chunksFrom (offset + min length Layout.chunkLength)
        (length - min length Layout.chunkLength)
  else []
termination_by length
decreasing_by
  simp only [Layout.chunkLength]
  omega

private theorem chunksFrom_zero (offset : Nat) : chunksFrom offset 0 = [] := by
  rw [chunksFrom, if_neg (Nat.lt_irrefl 0)]

private theorem chunksFrom_of_pos {length : Nat} (h : 0 < length) (offset : Nat) :
    chunksFrom offset length =
      (offset, min length Layout.chunkLength) ::
        chunksFrom (offset + min length Layout.chunkLength)
          (length - min length Layout.chunkLength) := by
  rw [chunksFrom, if_pos h]

/-- The chunks tile the range. -/
theorem tiles_chunksFrom (offset length : Nat) :
    Tiles offset ((chunksFrom offset length).map Span.ofRange) (offset + length) := by
  fun_induction chunksFrom offset length with
  | case1 offset length hpos ih =>
    have hstop : offset + min length Layout.chunkLength +
        (length - min length Layout.chunkLength) = offset + length := by omega
    rw [hstop] at ih
    refine ⟨rfl, ?_, ih⟩
    simp only [Span.ofRange, Layout.chunkLength]
    omega
  | case2 offset length hzero => exact (Nat.eq_zero_of_not_pos hzero).symm ▸ rfl

/-- No chunk is longer than the bound. -/
theorem length_le_of_mem_chunksFrom {offset length : Nat} {chunk : Nat × Nat}
    (h : chunk ∈ chunksFrom offset length) : chunk.2 ≤ Layout.chunkLength := by
  fun_induction chunksFrom offset length with
  | case1 offset length hpos ih =>
    rcases List.mem_cons.mp h with rfl | h
    · exact Nat.min_le_right _ _
    · exact ih h
  | case2 offset length hzero => cases h

/-- All chunks but the last have the length of the bound. -/
theorem length_eq_of_mem_dropLast_chunksFrom {offset length : Nat} {chunk : Nat × Nat}
    (h : chunk ∈ (chunksFrom offset length).dropLast) : chunk.2 = Layout.chunkLength := by
  fun_induction chunksFrom offset length with
  | case1 offset length hpos ih =>
    by_cases hlast : length ≤ Layout.chunkLength
    · rw [Nat.min_eq_left hlast, Nat.sub_self, chunksFrom_zero] at h
      cases h
    · have hmore : 0 < length - min length Layout.chunkLength := by omega
      have hnext : chunksFrom (offset + min length Layout.chunkLength)
          (length - min length Layout.chunkLength) ≠ [] := by
        rw [chunksFrom_of_pos hmore]
        exact List.cons_ne_nil _ _
      rw [List.dropLast_cons_of_ne_nil hnext] at h
      rcases List.mem_cons.mp h with rfl | h
      · exact Nat.min_eq_right (by omega)
      · exact ih h
  | case2 offset length hzero => cases h

/-- The number of chunks is the length over the bound, rounded up. -/
theorem length_chunksFrom (offset length : Nat) :
    (chunksFrom offset length).length =
      (length + Layout.chunkLength - 1) / Layout.chunkLength := by
  fun_induction chunksFrom offset length with
  | case1 offset length hpos ih =>
    rw [List.length_cons, ih]
    simp only [Layout.chunkLength]
    omega
  | case2 offset length hzero =>
    rw [Nat.eq_zero_of_not_pos hzero]
    rfl

/-- A function that reads one chunk of a payload after another reads the chunks of the rest, and
then what it reads at the end. -/
private theorem PayloadCheck.eq_chunksFrom_append {journal : Bytes}
    {f : PayloadCheck → List (Nat × Nat)} {last : List (Nat × Nat)}
    (step : ∀ c : PayloadCheck, 0 < c.remaining → c.offset + c.remaining ≤ journal.length →
      f c = (c.request.offset, c.request.length) ::
        f (c.update (journal.window c.request.offset c.request.length)))
    (done : ∀ c : PayloadCheck, c.remaining = 0 → f c = last)
    (c : PayloadCheck) (h : c.offset + c.remaining ≤ journal.length) :
    f c = chunksFrom c.offset c.remaining ++ last := by
  -- By induction on what is left: a window inside the bytes is as long as it was asked for, so each
  -- chunk takes its length off.
  induction hn : c.remaining using Nat.strongRecOn generalizing c with
  | ind n ih =>
    subst hn
    by_cases hr : 0 < c.remaining
    · have hle : c.request.length ≤ c.remaining := Nat.min_le_left _ _
      have hlen : (journal.window c.request.offset c.request.length).length =
          c.request.length := Bytes.length_window (by simp only [request]; omega)
      let next := c.update (journal.window c.request.offset c.request.length)
      have hnext : next.remaining = c.remaining - c.request.length := by
        simp only [next, update, hlen]
      have hoffset : next.offset = c.offset + c.request.length := by
        simp only [next, update, hlen]
      have hrest := ih next.remaining (remaining_update_lt hr hlen) next (by omega) rfl
      rw [hoffset, hnext] at hrest
      rw [step c hr h, hrest, chunksFrom_of_pos hr]
      rfl
    · have hzero := Nat.eq_zero_of_not_pos hr
      rw [done c hzero, hzero, chunksFrom_zero, List.nil_append]

private theorem Scan.readsOn_eq {s : Scan} {journal : Bytes}
    (h : s.request.offset + s.request.length ≤ journal.length) :
    s.readsOn journal =
      (s.request.offset, s.request.length) ::
        match ScanProgress.ofStep
          (s.resume (journal.window s.request.offset s.request.length)) with
        | .over _ => []
        | .waiting next => next.readsOn journal := by
  have hread := congrArg Prod.fst (readOnce_memory h)
  rcases hstep : ScanProgress.ofStep
      (s.resume (journal.window s.request.offset s.request.length)) with result | next
  · exact (readsOn_of_over (hread.trans hstep)).1
  · exact (readsOn_of_waiting (hread.trans hstep)).1

namespace ForwardScan

variable {s : ForwardScan} {journal : Bytes}

/-- The reads of a run over `journal` after a stage result. -/
def readsAfter (s : ForwardScan) (journal : Bytes) :
    Except JournalError (StageResult Stage) → List (Nat × Nat)
  | .ok (.next stage) => (Scan.forward { s with stage }).readsOn journal
  | .ok (.found _) | .error _ => []

/-- A scan whose request lies inside the bytes makes that read and those after the stage. -/
theorem readsOn_eq_readsAfter (h : s.request.offset + s.request.length ≤ journal.length) :
    (Scan.forward s).readsOn journal =
      (s.request.offset, s.request.length) ::
        s.readsAfter journal
          (s.advance (journal.window s.request.offset s.request.length)) := by
  rw [Scan.readsOn_eq (s := .forward s) h]
  simp only [Scan.resume, Scan.request, resume]
  cases s.advance (journal.window s.request.offset s.request.length) with
  | error error => rfl
  | ok result => cases result <;> rfl

private theorem readsAfter_afterTrailer (located : Located) (bytes : Bytes) :
    s.readsAfter journal (s.afterTrailer located bytes) = [] := by
  cases htrailer : s.afterTrailer located bytes with
  | error error => rfl
  | ok result =>
    obtain ⟨_, _, _, _, rfl⟩ := afterTrailer_eq_ok_iff.mp htrailer
    rfl

/-- After the header the payload is read in chunks, and then the trailer. -/
theorem readsAfter_ofLocated (located : Located) (htrailer : Layout.trailerLength ≤ located.next)
    (hnext : located.next ≤ journal.length)
    (hpayload : located.check.offset + located.check.remaining ≤ journal.length) :
    s.readsAfter journal (.ok (.next (.ofLocated located))) =
      chunksFrom located.check.offset located.check.remaining ++
        [(located.next - Layout.trailerLength, Layout.trailerLength)] := by
  refine PayloadCheck.eq_chunksFrom_append
    (f := fun check => s.readsAfter journal (.ok (.next (.ofLocated { located with check }))))
    ?_ ?_ located.check hpayload
  · intro check hpos hin
    have hle : check.request.length ≤ check.remaining := Nat.min_le_left _ _
    have hstage : Stage.ofLocated { located with check } = .payload { located with check } :=
      if_pos hpos
    rw [hstage]
    exact readsOn_eq_readsAfter (s := { s with stage := .payload { located with check } })
      (by simp only [request, PayloadCheck.request] at hle ⊢; omega)
  · intro check hzero
    have hstage : Stage.ofLocated { located with check } = .trailer { located with check } :=
      if_neg (Nat.not_lt.mpr (Nat.le_of_eq hzero))
    have htrailer : located.next - Layout.trailerLength + Layout.trailerLength ≤
        journal.length := by omega
    rw [hstage]
    exact (readsOn_eq_readsAfter (s := { s with stage := .trailer { located with check } })
      htrailer).trans (congrArg _ (readsAfter_afterTrailer _ _))

end ForwardScan

namespace BackwardScan

variable {s : BackwardScan} {journal : Bytes}

/-- The reads of a run over `journal` after a stage result. -/
def readsAfter (s : BackwardScan) (journal : Bytes) :
    Except JournalError (StageResult Stage) → List (Nat × Nat)
  | .ok (.next stage) => (Scan.backward { s with stage }).readsOn journal
  | .ok (.found _) | .error _ => []

/-- A scan whose request lies inside the bytes makes that read and those after the stage. -/
theorem readsOn_eq_readsAfter (h : s.request.offset + s.request.length ≤ journal.length) :
    (Scan.backward s).readsOn journal =
      (s.request.offset, s.request.length) ::
        s.readsAfter journal
          (s.advance (journal.window s.request.offset s.request.length)) := by
  rw [Scan.readsOn_eq (s := .backward s) h]
  simp only [Scan.resume, Scan.request, resume]
  cases s.advance (journal.window s.request.offset s.request.length) with
  | error error => rfl
  | ok result => cases result <;> rfl

/-- After the trailer the header is read where the trailer places it. -/
theorem readsAfter_header {start : Nat} {trailer : Trailer}
    (hin : start + trailer.headerLength.toNat ≤ journal.length) :
    s.readsAfter journal (.ok (.next (.header start trailer))) =
      (start, trailer.headerLength.toNat) :: s.readsAfter journal
        (s.afterHeader start trailer (journal.window start trailer.headerLength.toNat)) :=
  readsOn_eq_readsAfter (s := { s with stage := .header start trailer }) hin

/-- After the header the payload is read in chunks. -/
theorem readsAfter_afterPayload (record : Record) (trailer : Trailer) (check : PayloadCheck)
    (hpayload : check.offset + check.remaining ≤ journal.length) :
    s.readsAfter journal (afterPayload record trailer check) =
      chunksFrom check.offset check.remaining := by
  rw [← List.append_nil (chunksFrom check.offset check.remaining)]
  refine PayloadCheck.eq_chunksFrom_append
    (f := fun check => s.readsAfter journal (afterPayload record trailer check))
    ?_ ?_ check hpayload
  · intro check hpos hin
    have hle : check.request.length ≤ check.remaining := Nat.min_le_left _ _
    have hnext : afterPayload record trailer check =
        .ok (.next (.payload record trailer check)) := if_pos hpos
    rw [hnext]
    exact readsOn_eq_readsAfter (s := { s with stage := .payload record trailer check })
      (by simp only [request, PayloadCheck.request] at hle ⊢; omega)
  · intro check hzero
    unfold afterPayload
    rw [if_neg (Nat.not_lt.mpr (Nat.le_of_eq hzero))]
    cases trailer.checkSum check.checksum.value <;> rfl

end BackwardScan
end UndoLog
