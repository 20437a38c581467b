import UndoLog.Proofs.Reader.Walked
import UndoLog.Proofs.Report.Verification
import UndoLog.Report.Listing

/-!
# Listings and verification

A listing and a verification both walk a journal from its end. Whatever bytes follow the reserved
ones, a listing can be taken exactly as far as the verification has read, and fails with the error
that the verification reports.
-/

namespace UndoLog

variable {journal : Bytes} {records : List Record} {error? : Option JournalError} {stop : Nat}

/-- The listing of a journal in memory. -/
def listing (journal : Bytes) (order : ListingOrder) (limit? : Option Nat) :
    Except JournalError (List ListedRecord) :=
  (listRecords order limit? (⟨journal⟩ : MemoryStorage)).1

/-- The positions of a listed record. -/
def ListedRecord.span (listed : ListedRecord) : Span := ⟨listed.offset, listed.endOffset⟩

/-- The walk from the end of `journal` answers `records` and then the error. -/
def WalksTo (journal : Bytes) (records : List Record) (error? : Option JournalError)
    (stop : Nat) : Prop :=
  (⟨⟨journal⟩, journal.length, true⟩ : Reader MemoryStorage).rollback none =
    (records, error?, ⟨⟨journal⟩, stop, true⟩)

/-- The error if there is one, else `result`. -/
def unlessError {α : Type} (error? : Option JournalError) (result : α) : Except JournalError α :=
  match error? with
  | none => .ok result
  | some error => .error error

private theorem unlessError_eq_ok_iff {α : Type} {result listed : α} :
    unlessError error? result = .ok listed ↔ error? = none ∧ result = listed := by
  cases error? <;> simp [unlessError]

private theorem unlessError_eq_error_iff {α : Type} {result : α} {error : JournalError} :
    unlessError error? result = .error error ↔ error? = some error := by
  cases error? <;> simp [unlessError]

private theorem listing_newestFirst_none (hlen : Layout.journalStart ≤ journal.length)
    (hwalk : WalksTo journal records error? stop) :
    listing journal .newestFirst none = unlessError error? (records.map .ofRecord) := by
  unfold listing listRecords
  rw [Reader.seekEnd_memory hlen]
  dsimp only
  rw [hwalk]
  cases error? <;> rfl

/-- Newest first with a limit, the listing is the first part of the walk, or the error if that comes
before. -/
private theorem listing_newestFirst_some (hlen : Layout.journalStart ≤ journal.length)
    (hwalk : WalksTo journal records error? stop) (limit : Nat) :
    listing journal .newestFirst (some limit) =
      unlessError (if limit ≤ records.length then none else error?)
        ((records.take limit).map .ofRecord) := by
  obtain ⟨hrecords, herror⟩ :=
    Reader.rollback_limit limit (⟨⟨journal⟩, journal.length, true⟩ : Reader MemoryStorage)
  rw [hwalk] at hrecords herror
  unfold listing listRecords
  rw [Reader.seekEnd_memory hlen]
  dsimp only at hrecords herror ⊢
  rw [← hrecords, ← herror]
  generalize Reader.rollback (some limit)
    (⟨⟨journal⟩, journal.length, true⟩ : Reader MemoryStorage) = walk
  obtain ⟨found, _ | error, last⟩ := walk <;> rfl

private theorem listing_oldestFirst (hlen : Layout.journalStart ≤ journal.length)
    (hwalk : WalksTo journal records error? stop) (limit? : Option Nat) :
    let oldest := (records.map ListedRecord.ofRecord).reverse
    listing journal .oldestFirst limit? =
      unlessError error? ((limit?.map oldest.take).getD oldest) := by
  unfold listing listRecords
  rw [Reader.seekEnd_memory hlen]
  dsimp only
  rw [hwalk]
  cases error? <;> rfl

private theorem verifyJournal_of_walksTo (hlen : Layout.journalStart ≤ journal.length)
    (hmagic : journal.window 0 Layout.journalStart = Layout.magic)
    (hwalk : WalksTo journal records error? stop) :
    verifyJournal (⟨journal⟩ : MemoryStorage) =
      (.ok {
        journalLength := journal.length
        validRecords := records.length
        payloadBytes := (records.map Record.dataLength).sum
        defect? := error?.map .unreadable }, ⟨journal⟩) := by
  rw [verifyJournal_memory, if_neg (by omega), if_pos hmagic, verifyRecords_memory hlen, hwalk]

/-- The listings of a journal agree with a verification that read the records `newest`. With limit
`n` the newest records are listed exactly if there is no defect or `n` records were read, and are a
prefix of every longer listing; without limit, or oldest first, a listing succeeds exactly if there
is no defect. The oldest records are the reverse of all, cut to the limit. All records tile the
journal and their payload bytes are those counted. The error of a listing is the defect. -/
structure ListingsAgree (journal : Bytes) (newest : List Record) (v : Verification) : Prop where
  validRecords_eq : v.validRecords = newest.length
  newest_iff (limit : Nat) :
    (∃ listed, listing journal .newestFirst (some limit) = .ok listed) ↔
      v.defect? = none ∨ limit ≤ v.validRecords
  newest_prefix (limit : Nat) (listed : List ListedRecord)
    (ok : listing journal .newestFirst (some limit) = .ok listed) :
    listed = (newest.take limit).map .ofRecord ∧
      listed.length = min limit v.validRecords ∧
      ∀ limit? longer, (∀ greater ∈ limit?, limit ≤ greater) →
        listing journal .newestFirst limit? = .ok longer → listed <+: longer
  oldest_iff (order : ListingOrder) (limit? : Option Nat)
    (whole : order = .oldestFirst ∨ limit? = none) :
    (∃ listed, listing journal order limit? = .ok listed) ↔ v.defect? = none
  oldest_eq (limit? : Option Nat) (listed : List ListedRecord)
    (ok : listing journal .oldestFirst limit? = .ok listed) :
    ∃ all, listing journal .newestFirst none = .ok all ∧
      listed = (limit?.map all.reverse.take).getD all.reverse
  all_tile (all : List ListedRecord) (ok : listing journal .newestFirst none = .ok all) :
    Tiles Layout.journalStart (all.reverse.map ListedRecord.span) journal.length ∧
      (all.map ListedRecord.dataLength).sum = v.payloadBytes
  error_eq (order : ListingOrder) (limit? : Option Nat) (error : JournalError)
    (failed : listing journal order limit? = .error error) :
    v.defect? = some (.unreadable error) ∧ error.isCorruption ∧
      (Defect.unreadable error).message = "corruption: " ++ error.message

private theorem listingsAgree_of_walksTo (hlen : Layout.journalStart ≤ journal.length)
    (hwalk : WalksTo journal records error? stop)
    (hscans : ScansBack journal journal.length records stop)
    (hends : Reader.WalkEnds journal stop error?) :
    ListingsAgree journal records {
      journalLength := journal.length
      validRecords := records.length
      payloadBytes := (records.map Record.dataLength).sum
      defect? := error?.map .unreadable } where
  validRecords_eq := rfl
  newest_iff limit := by
    rw [listing_newestFirst_some hlen hwalk]
    simp only [unlessError_eq_ok_iff, exists_and_left, exists_eq', and_true, Option.map_eq_none_iff]
    split <;> simp [*]
  newest_prefix limit listed ok := by
    rw [listing_newestFirst_some hlen hwalk] at ok
    obtain ⟨-, rfl⟩ := unlessError_eq_ok_iff.mp ok
    refine ⟨rfl, by simp, ?_⟩
    intro limit? longer hgreater hlonger
    cases limit? with
    | none =>
      rw [listing_newestFirst_none hlen hwalk] at hlonger
      obtain ⟨-, rfl⟩ := unlessError_eq_ok_iff.mp hlonger
      exact (List.take_prefix limit records).map _
    | some greater =>
      rw [listing_newestFirst_some hlen hwalk] at hlonger
      obtain ⟨-, rfl⟩ := unlessError_eq_ok_iff.mp hlonger
      exact (List.take_prefix_take_left (hgreater greater rfl)).map _
  oldest_iff order limit? whole := by
    obtain ⟨result, hlisting⟩ :
        ∃ result, listing journal order limit? = unlessError error? result := by
      cases order with
      | oldestFirst => exact ⟨_, listing_oldestFirst hlen hwalk limit?⟩
      | newestFirst =>
        obtain rfl : limit? = none := whole.resolve_left nofun
        exact ⟨_, listing_newestFirst_none hlen hwalk⟩
    rw [hlisting]
    simp [unlessError_eq_ok_iff]
  oldest_eq limit? listed ok := by
    rw [listing_oldestFirst hlen hwalk] at ok
    obtain ⟨rfl, rfl⟩ := unlessError_eq_ok_iff.mp ok
    exact ⟨_, listing_newestFirst_none hlen hwalk, rfl⟩
  all_tile all ok := by
    rw [listing_newestFirst_none hlen hwalk] at ok
    obtain ⟨rfl, rfl⟩ := unlessError_eq_ok_iff.mp ok
    obtain rfl : stop = Layout.journalStart := hends
    rw [← List.map_reverse, List.map_map, List.map_map]
    exact ⟨hscans.tiles, rfl⟩
  error_eq order limit? error failed := by
    have hmet : error? = some error := by
      cases order with
      | oldestFirst =>
        rw [listing_oldestFirst hlen hwalk] at failed
        exact unlessError_eq_error_iff.mp failed
      | newestFirst =>
        cases limit? with
        | none =>
          rw [listing_newestFirst_none hlen hwalk] at failed
          exact unlessError_eq_error_iff.mp failed
        | some limit =>
          rw [listing_newestFirst_some hlen hwalk] at failed
          exact (ite_eq_iff.mp (unlessError_eq_error_iff.mp failed)).elim nofun And.right
    subst hmet
    have hcorrupt : error.isCorruption := hends.2
    exact ⟨rfl, hcorrupt, if_pos hcorrupt⟩

/-- For any bytes behind the reserved ones the journal is verified, backward scans find the newest
records up to the first record or an error, the verification reports that error, and the listings
agree with it on how far the records are read, on the records, and on the error. -/
theorem listings_agree_with_verification (rest : Bytes) :
    let journal := Layout.magic ++ rest
    ∃ v newest error? stop,
      verifyJournal (⟨journal⟩ : MemoryStorage) = (.ok v, ⟨journal⟩) ∧
        v.defect? = error?.map .unreadable ∧ ScansBack journal journal.length newest stop ∧
        Reader.WalkEnds journal stop error? ∧ ListingsAgree journal newest v := by
  intro journal
  have hlen : Layout.journalStart ≤ journal.length := by
    rw [List.length_append, Layout.length_magic]
    exact Nat.le_add_right _ _
  have hmagic : journal.window 0 Layout.journalStart = Layout.magic :=
    Bytes.window_append_append [] Layout.magic rest
  obtain ⟨records, error?, stop, hwalk, hscans, hends⟩ :=
    Reader.rollback_memory hlen (Nat.le_refl _) true
  exact ⟨_, records, error?, stop, verifyJournal_of_walksTo hlen hmagic hwalk, rfl, hscans, hends,
    listingsAgree_of_walksTo hlen hwalk hscans hends⟩

end UndoLog
