import UndoLog.Proofs.Journal.Boundaries
import UndoLog.Proofs.Reader.Memory
import UndoLog.Proofs.Writer

/-!
# Scanning backward from a cut

A scan backward from a cut sees only the bytes before it, so it does not matter whether the journal
ends there or goes on. It finds the written record that ends at the cut. Where none does it fails,
unless the bytes before the cut are what some record is written as at the very offset where they
begin. The saved bytes of a record are arbitrary, and can hold such bytes.

UndoJournal specification: section 5.4, step 7, and section 11.
-/

namespace UndoLog

open Journal

/-- A backward scan from a cut finds the written record that ends there, nothing at the start of the
first record, and corruption everywhere else. -/
structure ReportsCut (records : List Record) (cut : Nat) (result : ScanResult) : Prop where
  written : ∀ r ∈ records, r.endOffset = cut → result = .ok (some ⟨r, r.journalOffset⟩)
  start : cut = Layout.journalStart → result = .ok none
  corrupt : cut ≠ Layout.journalStart → (∀ r ∈ records, r.endOffset ≠ cut) →
    ∃ error, result = .error error ∧ error.isCorruption

/-- If any record stands in the journal and ends at `cut`, a written one does. -/
def EndsWritten (records : List Record) (cut : Nat) (journal : Bytes) : Prop :=
  ∀ (r : Record) (payload : Bytes), r.StandsIn payload journal → r.endOffset = cut →
    ∃ written ∈ records, written.endOffset = cut

private theorem endsWritten_take_iff {records : List Record} {cut : Nat} {journal : Bytes} :
    EndsWritten records cut (journal.take cut) ↔ EndsWritten records cut journal := by
  constructor
  · intro h r payload hr hend
    exact h r payload ((Record.StandsIn.standsIn_take_iff (Nat.le_of_eq hend)).mpr hr) hend
  · intro h r payload hr hend
    exact h r payload ((Record.StandsIn.standsIn_take_iff (Nat.le_of_eq hend)).mp hr) hend

/-- A backward scan from a cut reports it correctly iff every record that stands there and ends at
the cut is a written one. -/
private theorem reportsCut_iff_endsWritten {records : List Record} {cut : Nat} {journal : Bytes}
    (hstart : Layout.journalStart ≤ cut) (hin : cut ≤ journal.length)
    (hrecords : ∀ r ∈ records, r.endOffset = cut → ∃ payload, r.StandsIn payload journal) :
    ReportsCut records cut ((ScanTask.backward cut).resultOn journal) ↔
      EndsWritten records cut journal := by
  constructor
  · intro hcut r payload hr hend
    by_contra hnone
    have hne : cut ≠ Layout.journalStart := by
      have hle := hr.start_le
      have hlonger := r.trailerLength_lt_encodedLength
      unfold Record.endOffset at hend
      omega
    obtain ⟨error, herror, -⟩ :=
      hcut.corrupt hne fun written hw hends => hnone ⟨written, hw, hends⟩
    have hfound := ScanTask.resultOn_backward_eq_some_iff.mpr ⟨hend, rfl, payload, hr⟩
    rw [hfound] at herror
    cases herror
  · intro hends
    refine ⟨?written, ?start, ?corrupt⟩
    case written =>
      intro r hr hend
      exact ScanTask.resultOn_backward_eq_some_iff.mpr ⟨hend, rfl, hrecords r hr hend⟩
    case start =>
      intro hcut
      exact ScanTask.resultOn_backward_eq_none_iff.mpr ⟨hcut, Nat.le_trans hstart hin⟩
    case corrupt =>
      intro hne hnone
      have hlt : Layout.journalStart < cut := by omega
      obtain ⟨r, payload, -, hend, hr⟩ | hcorrupt := ScanTask.found_or_corrupt hlt hin
      · obtain ⟨written, hw, hwritten⟩ := hends r payload hr hend
        exact absurd hwritten (hnone written hw)
      · exact hcorrupt

/-- A backward scan from a cut of a journal that a writer accepted, and one from the same position
of the whole journal, report the cut correctly iff a written record ends there or no record at all
stands in the journal and ends there. A reader that seeks the cut answers like the latter. -/
theorem backward_from_cut {syncOnWrite : Bool} {calls : List (BuilderStep × Timestamp)}
    {records : List Record} {w : Writer MemoryStorage}
    (haccepted : (Writer.fresh syncOnWrite).recordAll? calls = some (records, w))
    (hleap : ∀ call ∈ calls, ¬ call.2.IsLeap) {cut : Nat} (hstart : Layout.journalStart ≤ cut)
    (hin : cut ≤ w.storage.data.length) :
    (ReportsCut records cut ((ScanTask.backward cut).resultOn (w.storage.data.take cut)) ↔
        EndsWritten records cut w.storage.data) ∧
      (ReportsCut records cut ((ScanTask.backward cut).resultOn w.storage.data) ↔
        EndsWritten records cut w.storage.data) ∧
      ∀ position verifyTrailer,
        let r : Reader MemoryStorage := ⟨w.storage, position, verifyTrailer⟩
        (r.seek cut).1 = .ok () ∧
          (r.seek cut).2.nextBackward =
            Reader.commit ⟨w.storage, cut, verifyTrailer⟩
              ((ScanTask.backward cut).resultOn w.storage.data, w.storage) := by
  obtain ⟨entries, hstored, hdata, rfl, -⟩ :=
    Writer.recordAll?_ofEntries (Writer.data_fresh syncOnWrite) hleap haccepted
  rw [List.nil_append] at hdata
  have hstands (r : Record) (hr : r ∈ recordsFrom Layout.journalStart entries) :
      ∃ payload, r.StandsIn payload w.storage.data := by
    rw [hdata]
    exact standsIn_of_mem_recordsFrom hstored hr
  refine ⟨?_, ?_, ?_⟩
  · rw [← endsWritten_take_iff]
    apply reportsCut_iff_endsWritten hstart
    · rw [List.length_take]
      omega
    · intro r hr hend
      obtain ⟨payload, h⟩ := hstands r hr
      exact ⟨payload, (Record.StandsIn.standsIn_take_iff (Nat.le_of_eq hend)).mpr h⟩
  · exact reportsCut_iff_endsWritten hstart hin fun r hr _ => hstands r hr
  · intro position verifyTrailer r
    have hseek := Reader.seek_memory hstart hin position verifyTrailer
    rw [hseek]
    exact ⟨rfl, Reader.nextBackward_memory w.storage.data cut verifyTrailer⟩

/-- A write of bytes `0xff`, cut before its trailer. The last byte left is no tag. -/
theorem backward_from_cut_of_ones :
    let epoch : Timestamp := ⟨0, 0, by decide, by decide⟩
    ∃ records w,
      (Writer.fresh true).recordAll? [(.write 0 (List.replicate 25 255), epoch)] =
          some (records, w) ∧
        records.map Record.endOffset = [59] ∧
        ∃ error, (ScanTask.backward 45).resultOn (w.storage.data.take 45) = .error error ∧
          error.isCorruption := by
  intro epoch
  have hfacts : ((Writer.fresh true).recordAll?
      [(.write 0 (List.replicate 25 255), epoch)]).map
        (fun result => (result.1.map Record.endOffset, result.2.storage.data.length,
          result.2.storage.data.window 31 14)) =
          some ([59], 59, List.replicate 14 255) := by decide +kernel
  obtain ⟨⟨records, w⟩, haccepted, hresult⟩ := Option.map_eq_some_iff.mp hfacts
  obtain ⟨hoffsets, hrest⟩ := Prod.mk.inj hresult
  obtain ⟨hlength, hlast⟩ := Prod.mk.inj hrest
  dsimp only at hoffsets hlength hlast
  refine ⟨records, w, haccepted, hoffsets, ?_⟩
  have hnone (r : Record) (payload : Bytes) (hr : r.StandsIn payload w.storage.data) :
      r.endOffset ≠ 45 := by
    intro hend
    have htrailer := hr.windows.2.2
    rw [hend] at htrailer
    have hdecode := Trailer.decode_encode (r.trailer payload)
    rw [← htrailer] at hdecode
    change Trailer.decode (w.storage.data.window 31 14) = _ at hdecode
    rw [hlast] at hdecode
    have htag : Except.map Trailer.tag (Trailer.decode (List.replicate 14 255)) = .ok 255 := by
      decide
    rw [hdecode] at htag
    have htype : r.type.tag = 255 := Except.ok.inj htag
    cases hkind : r.type <;> rw [hkind] at htype <;> cases htype
  have hends : EndsWritten records 45 w.storage.data :=
    fun r payload hr hend => absurd hend (hnone r payload hr)
  have hcut := (backward_from_cut haccepted (by simp [epoch, Timestamp.IsLeap]) (by decide)
    (by omega)).1.mpr hends
  apply hcut.corrupt (by decide)
  intro r hr
  have hmem := List.mem_map_of_mem (f := Record.endOffset) hr
  rw [hoffsets, List.mem_singleton] at hmem
  omega

/-- A backward scan from a cut can find a record that was never written. The one write saves the
encoding of a change of length for the very offset of those bytes, and the cut is at their end. -/
theorem backward_from_cut_can_find_unwritten :
    let epoch : Timestamp := ⟨0, 0, by decide, by decide⟩
    let unwritten : Record := ⟨20, epoch, .length 0 0⟩
    let saved : Bytes :=
      [1, 0, 0, 0, 0, 0, 0, 0, 0, 0, 0, 71, 32, 172, 225, 11, 0, 0, 0, 0, 0, 0, 0, 0, 1]
    ∃ records w,
      (Writer.fresh true).recordAll? [(.write 0 saved, epoch)] = some (records, w) ∧
        records.map Record.endOffset = [59] ∧ w.storage.data.length = 59 ∧
        (ScanTask.backward 45).resultOn (w.storage.data.take 45) = .ok (some ⟨unwritten, 20⟩) ∧
        ¬ ReportsCut records 45 ((ScanTask.backward 45).resultOn (w.storage.data.take 45)) := by
  intro epoch unwritten saved
  have hfacts : ((Writer.fresh true).recordAll? [(.write 0 saved, epoch)]).map
      (fun result => (result.1.map Record.endOffset, result.2.storage.data.length,
        result.2.storage.data.window 20 25)) =
        some ([59], 59, unwritten.image []) := by decide +kernel
  obtain ⟨⟨records, w⟩, haccepted, hresult⟩ := Option.map_eq_some_iff.mp hfacts
  obtain ⟨hoffsets, hrest⟩ := Prod.mk.inj hresult
  obtain ⟨hlength, hheld⟩ := Prod.mk.inj hrest
  dsimp only at hoffsets hlength hheld
  have hstands : unwritten.StandsIn [] (w.storage.data.take 45) := by
    rw [Record.StandsIn.standsIn_take_iff (by decide)]
    exact ⟨by decide, by decide, trivial, rfl, hheld⟩
  have hfound : (ScanTask.backward 45).resultOn (w.storage.data.take 45) =
      .ok (some ⟨unwritten, 20⟩) :=
    ScanTask.resultOn_backward_eq_some_iff.mpr ⟨by decide, rfl, [], hstands⟩
  refine ⟨records, w, haccepted, hoffsets, hlength, hfound, ?_⟩
  intro hcut
  obtain ⟨error, herror, -⟩ := hcut.corrupt (by decide) (by
    intro r hr
    have hmem := List.mem_map_of_mem (f := Record.endOffset) hr
    rw [hoffsets, List.mem_singleton] at hmem
    omega)
  rw [hfound] at herror
  cases herror

end UndoLog
