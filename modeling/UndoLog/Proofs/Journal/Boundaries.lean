import Mathlib.Data.List.Basic
import UndoLog.Proofs.Journal.Grammar

/-!
# Where the records of a journal end

The records of entries lie one after another, so a cut falls past the end of some first entries and
before the end of the next one. The boundaries are the start of the first record and the end of
each; the boundary and the record at an index are those past as many first entries.
-/

namespace UndoLog.Journal

variable {offset cut : Nat}

/-- The records of entries lie between the first offset and the end of their bytes. -/
theorem endOffset_mem_recordsFrom {entries : List Entry} {r : Record}
    (h : r ∈ recordsFrom offset entries) :
    offset < r.endOffset ∧ r.endOffset ≤ offset + (imagesFrom offset entries).length := by
  induction entries generalizing offset with
  | nil => exact absurd h List.not_mem_nil
  | cons e rest ih =>
    have hpos := e.length_image_pos offset
    rw [imagesFrom, List.length_append]
    rcases List.mem_cons.mp h with rfl | hrest
    · rw [e.endOffset_recordAt]
      omega
    · have hr := ih hrest
      omega

/-- The last record ends where the bytes do. -/
theorem getLast?_recordsFrom (offset : Nat) (entries : List Entry) :
    ((recordsFrom offset entries).getLast?.map Record.endOffset).getD offset =
      offset + (imagesFrom offset entries).length := by
  rcases List.eq_nil_or_concat' entries with rfl | ⟨front, e, rfl⟩
  · rfl
  · rw [recordsFrom_concat, imagesFrom_concat, List.getLast?_concat, List.length_append,
      ← Nat.add_assoc]
    exact e.endOffset_recordAt _

/-- If as many records end at or before a cut as `front` has entries, the cut lies from the end of
`front` on and before the end of the next record. -/
theorem cut_of_countP {front back : List Entry} (hcut : offset ≤ cut)
    (hcount : (recordsFrom offset (front ++ back)).countP (fun r => r.endOffset ≤ cut) =
      front.length) :
    offset + (imagesFrom offset front).length ≤ cut ∧
      ∀ r ∈ recordsFrom (offset + (imagesFrom offset front).length) back, cut < r.endOffset := by
  induction front generalizing offset with
  | nil =>
    refine ⟨hcut, ?_⟩
    intro r hr
    have hnot := List.countP_eq_zero.mp hcount r hr
    rw [decide_eq_true_eq] at hnot
    omega
  | cons e front ih =>
    have hend : (e.recordAt offset).endOffset = offset + (e.image offset).length :=
      e.endOffset_recordAt offset
    rw [List.cons_append, recordsFrom, List.countP_cons, List.length_cons, hend] at hcount
    rw [imagesFrom, List.length_append, ← Nat.add_assoc]
    by_cases hfirst : offset + (e.image offset).length ≤ cut
    · rw [if_pos (decide_eq_true hfirst)] at hcount
      exact ih hfirst (by omega)
    · -- the records that follow end later still
      have hnone : (recordsFrom (offset + (e.image offset).length) (front ++ back)).countP
          (fun r => r.endOffset ≤ cut) = 0 := by
        rw [List.countP_eq_zero]
        intro r hr
        have hlate := (endOffset_mem_recordsFrom hr).1
        rw [decide_eq_true_eq]
        omega
      rw [if_neg (by rw [decide_eq_true_eq]; exact hfirst), hnone] at hcount
      omega

/-- The start of the first record and the end of each record. -/
def boundaries (records : List Record) : List Nat :=
  Layout.journalStart :: records.map Record.endOffset

/-- The record at index `front.length` is that of the next entry. -/
theorem getElem?_recordsFrom (offset : Nat) (front : List Entry) (e : Entry) (rest : List Entry) :
    (recordsFrom offset (front ++ e :: rest))[front.length]? =
      some (e.recordAt (offset + (imagesFrom offset front).length)) := by
  rw [recordsFrom_append, List.getElem?_append_right (Nat.le_of_eq (length_recordsFrom _ _)),
    length_recordsFrom, Nat.sub_self]
  rfl

/-- The boundary at index `front.length` is the end of `front`. -/
theorem getElem?_boundaries (front back : List Entry) :
    (boundaries (recordsFrom Layout.journalStart (front ++ back)))[front.length]? =
      some (Layout.journalStart + (imagesFrom Layout.journalStart front).length) := by
  rcases List.eq_nil_or_concat' front with rfl | ⟨first, e, rfl⟩
  · rfl
  · rw [boundaries, List.length_append, List.length_singleton, List.getElem?_cons_succ,
      List.getElem?_map, List.append_assoc, List.singleton_append, getElem?_recordsFrom,
      imagesFrom_concat, List.length_append, ← Nat.add_assoc]
    exact congrArg some (e.endOffset_recordAt _)

/-- Every boundary splits the entries. -/
theorem exists_append_of_boundary {entries : List Entry} {j position : Nat}
    (h : (boundaries (recordsFrom Layout.journalStart entries))[j]? = some position) :
    ∃ front back, entries = front ++ back ∧ front.length = j ∧
      position = Layout.journalStart + (imagesFrom Layout.journalStart front).length := by
  have hlt : j < entries.length + 1 := by
    have hsome := (List.getElem?_eq_some_iff.mp h).1
    rw [boundaries, List.length_cons, List.length_map, length_recordsFrom] at hsome
    exact hsome
  have hlen : (entries.take j).length = j := by
    rw [List.length_take]
    omega
  have hboundary := getElem?_boundaries (entries.take j) (entries.drop j)
  rw [List.take_append_drop, hlen, h] at hboundary
  exact ⟨entries.take j, entries.drop j, (List.take_append_drop j entries).symm, hlen,
    Option.some.inj hboundary⟩

/-- Every record is that of an entry between others. -/
theorem exists_append_of_record {entries : List Entry} {i : Nat} {r : Record}
    (h : (recordsFrom offset entries)[i]? = some r) :
    ∃ front e rest, entries = front ++ e :: rest ∧ front.length = i ∧
      r = e.recordAt (offset + (imagesFrom offset front).length) := by
  have hlt : i < entries.length := by
    have hsome := (List.getElem?_eq_some_iff.mp h).1
    rw [length_recordsFrom] at hsome
    exact hsome
  have hsplit : entries = entries.take i ++ entries[i] :: entries.drop (i + 1) := by
    rw [← List.drop_eq_getElem_cons hlt, List.take_append_drop]
  have hlen : (entries.take i).length = i := by
    rw [List.length_take]
    omega
  have hrecord := getElem?_recordsFrom offset (entries.take i) entries[i] (entries.drop (i + 1))
  rw [← hsplit, hlen, h] at hrecord
  exact ⟨entries.take i, entries[i], entries.drop (i + 1), hsplit, hlen, Option.some.inj hrecord⟩

/-- Every record of a journal stands in it. -/
theorem standsIn_of_mem_recordsFrom {entries : List Entry} (hstored : ∀ e ∈ entries, e.IsStored)
    {r : Record} (h : r ∈ recordsFrom Layout.journalStart entries) :
    ∃ payload, r.StandsIn payload (ofEntries entries) := by
  obtain ⟨i, hi⟩ := List.mem_iff_getElem?.mp h
  obtain ⟨front, e, rest, rfl, -, rfl⟩ := exists_append_of_record hi
  exact ⟨e.payload, standsIn_ofEntries (hstored e (by simp)) front rest⟩

end UndoLog.Journal
