import UndoLog.Proofs.Record.Bounded
import UndoLog.Proofs.Scan.Fed
import UndoLog.Proofs.Scan.Stable

/-!
# Overflow in a scan

Offsets are words, and a call panics where it adds up one that is not. A scan that is fed what it
requests can only do so at the end of a header field that the journal cuts off, and only a forward
scan: the end of a record is compared with the offset limit first
(`forward_overflows_only_in_cut_field`). With room for a header between the end of the journal and
the limit no call overflows (`Scan.Reached.resume?_eq`).
-/

namespace UndoLog

namespace ForwardScan

/-- The end of the cut header field, as an unbounded sum. -/
def cutEnd? (s : ForwardScan) (bytes : Bytes) : Option Nat :=
  match s.stage with
  | .header =>
    match DecodedHeader.decode s.cursor bytes with
    | .error error => error.fieldEnd?.map (s.cursor + ·)
    | .ok _ => none
  | _ => none

variable {s : ForwardScan} {bytes : Bytes} {cutEnd : Nat}

private theorem headerError?_eq_none_iff {available : Nat} {error : HeaderError} :
    s.headerError? available error = none ↔ available < Layout.maxHeaderLength ∧
      ∃ fieldEnd, error.fieldEnd? = some fieldEnd ∧ Layout.offsetLimit ≤ s.cursor + fieldEnd := by
  cases error with
  | unknownTag tag => exact ⟨nofun, by rintro ⟨-, _, ⟨⟩, -⟩⟩
  | field position error =>
    cases error with
    | unexpectedEnd needed found =>
      unfold headerError?
      dsimp only
      split
      · next hshort =>
        rw [Option.map_eq_none_iff, Layout.addOffset?_eq_none_iff]
        constructor
        · exact fun hlimit => ⟨hshort, _, rfl, hlimit⟩
        · rintro ⟨-, _, ⟨⟩, hlimit⟩
          exact hlimit
      · next hlong => exact ⟨nofun, fun h => absurd h.1 hlong⟩
    | invalidWidth width max => exact ⟨nofun, by rintro ⟨-, _, ⟨⟩, -⟩⟩
    | nonCanonical width => exact ⟨nofun, by rintro ⟨-, _, ⟨⟩, -⟩⟩
    | timestampOutOfRange micros => exact ⟨nofun, by rintro ⟨-, _, ⟨⟩, -⟩⟩

/-- A stage overflows iff the end of a cut header field, or the offset after a chunk, is past the
offset limit. -/
theorem advance?_eq_none_iff :
    s.advance? bytes = none ↔
      (∃ cutEnd, s.cutEnd? bytes = some cutEnd ∧ Layout.offsetLimit ≤ cutEnd) ∨
        ∃ located, s.stage = .payload located ∧
          Layout.offsetLimit ≤ located.check.offset + bytes.length := by
  unfold advance? cutEnd?
  generalize s.stage = stage
  cases stage with
  | header =>
    dsimp only
    cases hdecode : DecodedHeader.decode s.cursor bytes with
    | error error =>
      dsimp only
      rw [Option.map_eq_none_iff, headerError?_eq_none_iff]
      constructor
      · rintro ⟨-, fieldEnd, hcut, hlimit⟩
        exact .inl ⟨_, Option.map_eq_some_iff.mpr ⟨fieldEnd, hcut, rfl⟩, hlimit⟩
      · rintro (⟨_, hend, hlimit⟩ | ⟨_, ⟨⟩, -⟩)
        obtain ⟨fieldEnd, hcut, rfl⟩ := Option.map_eq_some_iff.mp hend
        obtain ⟨hpast, hmax⟩ := DecodedHeader.fieldEnd_of_decode hdecode hcut
        exact ⟨Nat.lt_of_lt_of_le hpast hmax, fieldEnd, hcut, hlimit⟩
    | ok decoded => exact ⟨nofun, by rintro (⟨_, ⟨⟩, -⟩ | ⟨_, ⟨⟩, -⟩)⟩
  | payload located =>
    dsimp only
    rw [Option.map_eq_none_iff, PayloadCheck.update?_eq_none_iff]
    constructor
    · exact fun hlimit => .inr ⟨located, rfl, hlimit⟩
    · rintro (⟨_, ⟨⟩, -⟩ | ⟨_, ⟨⟩, hlimit⟩)
      exact hlimit
  | trailer located => exact ⟨nofun, by rintro (⟨_, ⟨⟩, -⟩ | ⟨_, ⟨⟩, -⟩)⟩
  | finished => exact ⟨nofun, by rintro (⟨_, ⟨⟩, -⟩ | ⟨_, ⟨⟩, -⟩)⟩

/-- A fed stage overflows iff the end of a cut header field is past the offset limit. -/
theorem advance?_eq_none_iff_of_fed (hword : s.journalLength < Layout.offsetLimit)
    (hwithin : s.stage.IsWithin s.cursor s.journalLength)
    (hfed : bytes.length = s.request.length) :
    s.advance? bytes = none ↔
      ∃ cutEnd, s.cutEnd? bytes = some cutEnd ∧ Layout.offsetLimit ≤ cutEnd := by
  rw [advance?_eq_none_iff, or_iff_left]
  rintro ⟨located, hstage, hlimit⟩
  rw [hstage] at hwithin
  have hrequest : s.request = located.check.request := by rw [request, hstage]
  have hchunk := PayloadCheck.offset_add_length_le (c := located.check) (by rw [hfed, hrequest])
  have hafter := located.record.payloadOffset_add_dataLength
  have hcheck := hwithin.check_eq
  have hnext := hwithin.next_eq
  have hin := hwithin.next_le
  omega

/-- A cut field ends past the bytes and is reported with its end. -/
theorem advance_of_cutEnd? (h : s.cutEnd? bytes = some cutEnd) :
    s.cursor + bytes.length < cutEnd ∧ cutEnd ≤ s.cursor + Layout.maxHeaderLength ∧
      s.advance bytes = .error (s.truncated cutEnd) := by
  unfold cutEnd? at h
  split at h
  · next hstage =>
    split at h
    · next error hdecode =>
      obtain ⟨fieldEnd, hcut, rfl⟩ := Option.map_eq_some_iff.mp h
      obtain ⟨hpast, hmax⟩ := DecodedHeader.fieldEnd_of_decode hdecode hcut
      obtain ⟨damage, hanswer⟩ := ScanTask.exists_headerError_of_cut hcut
      refine ⟨Nat.add_lt_add_left hpast _, Nat.add_le_add_left hmax _, ?_⟩
      unfold advance
      rw [hstage]
      dsimp only
      rw [hdecode]
      dsimp only
      rw [hanswer, if_pos (Nat.lt_of_lt_of_le hpast hmax)]
    · cases h
  · cases h

private theorem stage_of_cutEnd? (h : s.cutEnd? bytes = some cutEnd) : s.stage = .header := by
  unfold cutEnd? at h
  split at h
  · assumption
  · cases h

/-- A field cut off in the requested bytes is cut off by the end of the journal. -/
theorem journalLength_lt_of_cutEnd? (hwithin : s.stage.IsWithin s.cursor s.journalLength)
    (hfed : bytes.length = s.request.length) (h : s.cutEnd? bytes = some cutEnd) :
    s.cursor < s.journalLength ∧ s.journalLength < cutEnd := by
  obtain ⟨hpast, hmax, -⟩ := advance_of_cutEnd? h
  have hstage := stage_of_cutEnd? h
  rw [hstage] at hwithin
  have hlt : s.cursor < s.journalLength := hwithin
  rw [request, hstage] at hfed
  dsimp only at hfed
  exact ⟨hlt, by omega⟩

private theorem advance_of_offsetLimit_le {decoded : DecodedHeader} (hstage : s.stage = .header)
    (hdecode : DecodedHeader.decode s.cursor bytes = .ok decoded)
    (hfits : decoded.record.kind.FitsTarget s.targetLength)
    (hlimit : Layout.offsetLimit ≤ decoded.record.endOffset) :
    s.advance bytes = .error (.corruptRecord s.cursor .recordOverflow) := by
  obtain ⟨hoffset, -, hlength, -⟩ := DecodedHeader.decode_eq_ok_iff.mp hdecode
  rw [Record.endOffset_eq, hoffset, ← hlength] at hlimit
  unfold advance
  rw [hstage]
  dsimp only
  rw [hdecode]
  dsimp only [afterHeader]
  rw [RecordKind.checkTarget_eq_ok_iff.mpr hfits]
  exact if_pos hlimit

/-- A truncation after a complete header has `recordEnd` past the journal and below the offset
limit. -/
private theorem lt_of_afterHeader_eq_truncated {decoded : DecodedHeader}
    {offset recordEnd length : Nat}
    (h : s.afterHeader bytes decoded = .error (.truncatedJournal offset recordEnd length)) :
    offset = s.cursor ∧ length = s.journalLength ∧ s.journalLength < recordEnd ∧
      recordEnd < Layout.offsetLimit := by
  unfold afterHeader at h
  dsimp only at h
  split at h
  · cases h
  · split at h
    · cases h
    · next hlimit =>
      split at h
      · next hcut =>
        cases h
        exact ⟨rfl, rfl, hcut, Nat.not_le.mp hlimit⟩
      · split at h <;> cases h

/-- A truncation has `recordEnd` past the journal and below the offset limit. -/
theorem lt_of_advance?_eq_truncated {offset recordEnd length : Nat}
    (hword : s.journalLength < Layout.offsetLimit)
    (hwithin : s.stage.IsWithin s.cursor s.journalLength) (hfed : bytes.length = s.request.length)
    (h : s.advance? bytes = some (.error (.truncatedJournal offset recordEnd length))) :
    offset = s.cursor ∧ length = s.journalLength ∧ s.journalLength < recordEnd ∧
      recordEnd < Layout.offsetLimit := by
  have hadvance := eq_of_advance? h
  cases hcut : s.cutEnd? bytes with
  | some cutEnd =>
    obtain ⟨-, hpast⟩ := journalLength_lt_of_cutEnd? hwithin hfed hcut
    have hfits : ¬Layout.offsetLimit ≤ cutEnd := by
      intro hlimit
      rw [(advance?_eq_none_iff_of_fed hword hwithin hfed).mpr ⟨cutEnd, hcut, hlimit⟩] at h
      cases h
    rw [(advance_of_cutEnd? hcut).2.2] at hadvance
    cases hadvance
    exact ⟨rfl, rfl, hpast, Nat.not_le.mp hfits⟩
  | none =>
    unfold advance at hadvance
    unfold cutEnd? at hcut
    cases hstage : s.stage with
    | header =>
      rw [hstage] at hadvance hcut
      dsimp only at hadvance hcut
      cases hdecode : DecodedHeader.decode s.cursor bytes with
      | error error =>
        rw [hdecode] at hadvance hcut
        have hrefused : error.fieldEnd? = none := Option.map_eq_none_iff.mp hcut
        obtain ⟨answer, hends, hanswer⟩ :=
          ScanTask.exists_headerError_of_refused hrefused s.cursor
        dsimp only at hadvance
        rw [hanswer s bytes.length rfl] at hadvance
        cases hadvance
        -- No answer that refuses the bytes for what they are has an end.
        exact absurd (hends (recordEnd + 1)) (Nat.not_succ_le_self recordEnd)
      | ok decoded =>
        rw [hdecode] at hadvance
        exact lt_of_afterHeader_eq_truncated hadvance
    | payload located =>
      rw [hstage] at hadvance
      cases hadvance
    | trailer located =>
      rw [hstage] at hadvance hwithin
      obtain ⟨damage, hcorrupt⟩ := corrupt_of_afterTrailer hwithin.journalOffset_eq hadvance
      cases hcorrupt
    | finished =>
      rw [hstage] at hadvance
      cases hadvance

/-- A start reports no truncation. -/
theorem start_ne_truncated (s : ForwardScan) (offset recordEnd length : Nat) :
    s.start.1 ≠ .error (.truncatedJournal offset recordEnd length) := by
  unfold start checkCursor
  split
  · next herror =>
    split at herror <;> cases herror
    exact nofun
  · split <;> exact nofun

end ForwardScan

private theorem BackwardScan.advance?_ne_none {s : BackwardScan} {bytes : Bytes}
    (hword : s.cursor < Layout.offsetLimit) (hwithin : s.stage.IsWithin s.cursor)
    (hfed : bytes.length = s.request.length) : s.advance? bytes ≠ none := by
  unfold advance?
  cases hstage : s.stage with
  | trailer =>
    rw [hstage] at hwithin
    have hroom : Layout.trailerLength ≤ s.cursor := hwithin
    have hlength : 0 < Layout.trailerLength := by decide
    dsimp only
    rw [afterTrailer?_eq (by omega)]
    exact Option.some_ne_none _
  | header start trailer => exact Option.some_ne_none _
  | payload record trailer check =>
    rw [hstage] at hwithin
    have hrequest : s.request = check.request := by rw [request, hstage]
    have hchunk := PayloadCheck.offset_add_length_le (c := check) (by rw [hfed, hrequest])
    have hend : check.offset + check.remaining + Layout.trailerLength = s.cursor := hwithin
    dsimp only
    rw [ne_eq, Option.map_eq_none_iff, PayloadCheck.update?_eq_none_iff]
    omega
  | finished => exact Option.some_ne_none _

/-- With room for a header below the offset limit, no resume of a fed scan overflows. -/
theorem Scan.Reached.resume?_eq {task : ScanTask} {journalLength : Nat} {request : ReadRequest}
    {mid : Scan} {bytes : Bytes}
    (hroom : journalLength + Layout.maxHeaderLength ≤ Layout.offsetLimit)
    (h : (task.scan journalLength).Reached request mid) (hfed : bytes.length = request.length) :
    mid.resume? bytes = some (mid.resume bytes) := by
  have hmax : 0 < Layout.maxHeaderLength := by decide
  obtain ⟨hsame, rfl, hwithin⟩ := h.isWithin
  have hne : mid.resume? bytes ≠ none := by
    cases task with
    | forward cursor targetLength verifyTrailer =>
      cases mid with
      | backward scan => cases hsame
      | forward scan =>
        have hlength : scan.journalLength = journalLength :=
          congrArg ForwardScan.journalLength (Scan.forward.inj hsame)
        rw [resume?, ForwardScan.resume?, ne_eq, Option.map_eq_none_iff, Option.map_eq_none_iff,
          ForwardScan.advance?_eq_none_iff_of_fed (by omega) hwithin hfed]
        rintro ⟨cutEnd, hcut, hlimit⟩
        obtain ⟨-, hend, -⟩ := ForwardScan.advance_of_cutEnd? hcut
        obtain ⟨hin, -⟩ := ForwardScan.journalLength_lt_of_cutEnd? hwithin hfed hcut
        omega
    | backward cursor =>
      cases mid with
      | forward scan => cases hsame
      | backward scan =>
        have hlength : scan.journalLength = journalLength :=
          congrArg BackwardScan.journalLength (Scan.backward.inj hsame)
        rw [resume?, BackwardScan.resume?, ne_eq, Option.map_eq_none_iff, Option.map_eq_none_iff]
        have hin := hwithin.2
        exact BackwardScan.advance?_ne_none (by omega) hwithin.1 hfed
  cases hcall : mid.resume? bytes with
  | none => exact absurd hcall hne
  | some answer => rw [eq_of_resume? hcall]

/-- A fed forward scan, at any position of a journal of any length, keeps its offsets inside the
journal, and a resume panics iff the end of the cut header field is past the offset limit. Otherwise
a record found ends inside the journal, a record that ends past the offset limit is corrupt, and a
truncation starts at the position with a `recordEnd` past the journal and below the offset limit. -/
theorem forward_overflows_only_in_cut_field (cursor journalLength targetLength : UInt64)
    (verifyTrailer : Bool) :
    let s : ForwardScan := {
      cursor := cursor.toNat, journalLength := journalLength.toNat,
      targetLength := targetLength.toNat, verifyTrailer }
    (∀ offset recordEnd length,
      s.start.1 ≠ .error (.truncatedJournal offset recordEnd length)) ∧
    ∀ (request : ReadRequest) (mid : ForwardScan) (bytes : Bytes),
      (Scan.forward s).Reached request (.forward mid) → bytes.length = request.length →
      mid.stage.IsWithin s.cursor s.journalLength ∧
      (mid.resume? bytes = none ↔
        ∃ cutEnd, mid.cutEnd? bytes = some cutEnd ∧ Layout.offsetLimit ≤ cutEnd) ∧
      (∀ cutEnd, mid.cutEnd? bytes = some cutEnd →
        s.journalLength < cutEnd ∧ cutEnd ≤ s.cursor + Layout.maxHeaderLength ∧
          (cutEnd < Layout.offsetLimit → (mid.resume? bytes).map Prod.fst =
            some (.error (.truncatedJournal s.cursor cutEnd s.journalLength)))) ∧
      ∀ answer next, mid.resume? bytes = some (answer, next) →
        (∀ found, answer = .ok (.done (some found)) →
          found.cursor = found.record.endOffset ∧ found.cursor ≤ s.journalLength) ∧
        (∀ decoded, mid.stage = .header → DecodedHeader.decode s.cursor bytes = .ok decoded →
          decoded.record.kind.FitsTarget s.targetLength →
          Layout.offsetLimit ≤ decoded.record.endOffset →
          answer = .error (.corruptRecord s.cursor .recordOverflow)) ∧
        ∀ offset recordEnd length, answer = .error (.truncatedJournal offset recordEnd length) →
          offset = s.cursor ∧ length = s.journalLength ∧ s.journalLength < recordEnd ∧
            recordEnd < Layout.offsetLimit := by
  intro s
  refine ⟨s.start_ne_truncated, ?_⟩
  intro request mid bytes hreached hfed
  let task : ScanTask := .forward cursor.toNat targetLength.toNat verifyTrailer
  have htask : (task.scan journalLength.toNat).Reached request (.forward mid) := hreached
  obtain ⟨hsame, rfl, hwithin⟩ := htask.isWithin
  have hkept := Scan.forward.inj hsame
  have hcursor : mid.cursor = s.cursor := (congrArg ForwardScan.cursor hkept :)
  have hlength : mid.journalLength = s.journalLength := (congrArg ForwardScan.journalLength hkept :)
  have htarget : mid.targetLength = s.targetLength := (congrArg ForwardScan.targetLength hkept :)
  have hword : mid.journalLength < Layout.offsetLimit := hlength ▸ journalLength.toNat_lt
  have hnone : mid.resume? bytes = none ↔
      ∃ cutEnd, mid.cutEnd? bytes = some cutEnd ∧ Layout.offsetLimit ≤ cutEnd := by
    rw [ForwardScan.resume?, Option.map_eq_none_iff,
      ForwardScan.advance?_eq_none_iff_of_fed hword hwithin hfed]
  rw [← hcursor, ← hlength, ← htarget]
  refine ⟨hwithin, hnone, ?_, ?_⟩
  · intro cutEnd hcut
    obtain ⟨-, hmax, hadvance⟩ := ForwardScan.advance_of_cutEnd? hcut
    obtain ⟨-, hpast⟩ := ForwardScan.journalLength_lt_of_cutEnd? hwithin hfed hcut
    refine ⟨hpast, hmax, fun hfits => ?_⟩
    cases hcall : mid.advance? bytes with
    | none =>
      obtain ⟨_, hother, hlimit⟩ :=
        (ForwardScan.advance?_eq_none_iff_of_fed hword hwithin hfed).mp hcall
      cases hcut.symm.trans hother
      exact absurd hfits (Nat.not_lt.mpr hlimit)
    | some result =>
      rw [ForwardScan.resume?, hcall, ← ForwardScan.eq_of_advance? hcall, hadvance]
      rfl
  · intro answer next hanswer
    obtain ⟨result, hcall, hsettle⟩ := Option.map_eq_some_iff.mp hanswer
    have hadvance := ForwardScan.eq_of_advance? hcall
    obtain rfl : (mid.settle result).1 = answer := congrArg Prod.fst hsettle
    refine ⟨?_, ?_, ?_⟩
    · intro found hfound
      rw [StageResult.settle_fst_eq_found_iff.mp hfound] at hadvance
      exact ForwardScan.isWithin_of_advance hwithin hfed hadvance
    · intro decoded hstage hdecode hfits hlimit
      apply StageResult.settle_fst_eq_error_iff.mpr
      rw [← hadvance]
      exact ForwardScan.advance_of_offsetLimit_le hstage hdecode hfits hlimit
    · intro offset recordEnd length htruncated
      rw [StageResult.settle_fst_eq_error_iff.mp htruncated] at hcall
      exact ForwardScan.lt_of_advance?_eq_truncated hword hwithin hfed hcall

/-- A header cut off after nine bytes, whose third field ends at the greatest offset. -/
theorem forward_overflows_only_in_cut_field_of_edge :
    let s : ForwardScan := {
      cursor := 18446744073709551605, journalLength := 18446744073709551614, targetLength := 3,
      verifyTrailer := true }
    let header : Bytes := [1, 0, 0, 0, 0, 0, 0, 0, 0]
    (Scan.forward s).Reached ⟨18446744073709551605, 9⟩ (.forward s) ∧ header.length = 9 ∧
      s.cutEnd? header = some 18446744073709551615 ∧
      (s.resume? header).map Prod.fst =
        some (.error (.truncatedJournal 18446744073709551605 18446744073709551615
          18446744073709551614)) := by
  intro s header
  have hstart : s.start = (.ok (.read ⟨18446744073709551605, 9⟩), s) :=
    ForwardScan.start_eq_read_iff.mpr ⟨by decide, by decide, rfl, by decide⟩
  have hreached : (Scan.forward s).Reached ⟨18446744073709551605, 9⟩ (.forward s) :=
    .started (congrArg (Prod.map id Scan.forward) hstart)
  have hcut : s.cutEnd? header = some 18446744073709551615 := by decide
  obtain ⟨-, hanswers⟩ := forward_overflows_only_in_cut_field 18446744073709551605
    18446744073709551614 3 true
  obtain ⟨-, -, hends, -⟩ := hanswers _ s header hreached rfl
  obtain ⟨-, -, hanswer⟩ := hends _ hcut
  exact ⟨hreached, rfl, hcut, hanswer (by decide)⟩

/-- A header cut off after one byte, whose second field ends past the offset limit: the resume
panics. -/
theorem cut_field_can_overflow :
    let s : ForwardScan := {
      cursor := 18446744073709551614, journalLength := 18446744073709551615, targetLength := 0,
      verifyTrailer := true }
    let header : Bytes := [0]
    (Scan.forward s).Reached ⟨18446744073709551614, 1⟩ (.forward s) ∧ header.length = 1 ∧
      s.cutEnd? header = some 18446744073709551623 ∧ s.resume? header = none :=
  ⟨.started rfl, rfl, by decide, by decide⟩

end UndoLog
