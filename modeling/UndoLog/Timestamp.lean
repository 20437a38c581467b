/-!
# Timestamps

A timestamp is a count of seconds since 1970-01-01T00:00:00Z and a count of nanoseconds within the
second, between the start of the year -262143 and the end of the year 262142. A second billion of
nanoseconds is a leap second. `of?` makes one only of the last second of a minute; a timestamp whose
nanoseconds are set by hand may have one after any second.

A journal stores whole microseconds, which do not tell a leap second from the second after it.
`micros` is the stored number and `ofMicros?` reads it back.
-/

namespace UndoLog

namespace Timestamp

/-- The first second of the year -262143. -/
def minSeconds : Int := -8334601228800

/-- The last second of the year 262142. -/
def maxSeconds : Int := 8210266876799

end Timestamp

/-- A time in UTC: whole seconds since the epoch, and nanoseconds after that second, a billion or
more of them in a leap second. -/
structure Timestamp where
  seconds : Int
  nanos : Nat
  seconds_mem : Timestamp.minSeconds ≤ seconds ∧ seconds ≤ Timestamp.maxSeconds
  nanos_lt : nanos < 2000000000
  deriving DecidableEq, Repr

namespace Timestamp

/-- The timestamp with these parts, if they are in range. A leap second is at the end of a
minute. -/
def of? (seconds : Int) (nanos : Nat) : Option Timestamp :=
  if hs : minSeconds ≤ seconds ∧ seconds ≤ maxSeconds then
    if hn : nanos < 1000000000 ∨ nanos < 2000000000 ∧ seconds % 60 = 59 then
      some ⟨seconds, nanos, hs, by omega⟩
    else none
  else none

/-- The least number of microseconds that is a timestamp. -/
def minMicros : Int := minSeconds * 1000000

/-- The greatest number of microseconds that is a timestamp. -/
def maxMicros : Int := maxSeconds * 1000000 + 999999

/-- The timestamp `micros` after the epoch, never in a leap second. -/
def ofMicros? (micros : Int) : Option Timestamp :=
  if h : minMicros ≤ micros ∧ micros ≤ maxMicros then
    some {
      seconds := micros / 1000000
      nanos := (micros % 1000000).toNat * 1000
      seconds_mem := by
        simp only [minMicros, maxMicros, minSeconds, maxSeconds] at h ⊢
        omega
      nanos_lt := by omega }
  else none

/-- The microseconds since the epoch; a leap second counts as the second after it. -/
def micros (t : Timestamp) : Int := t.seconds * 1000000 + (t.nanos / 1000 : Nat)

/-- The timestamp without its nanoseconds below a microsecond. -/
def truncateToMicros (t : Timestamp) : Timestamp :=
  { t with
    nanos := t.nanos - t.nanos % 1000
    nanos_lt := Nat.lt_of_le_of_lt (Nat.sub_le _ _) t.nanos_lt }

/-- The timestamp is in a leap second. -/
def IsLeap (t : Timestamp) : Prop := 1000000000 ≤ t.nanos

instance (t : Timestamp) : Decidable t.IsLeap := inferInstanceAs (Decidable (_ ≤ _))

/-- Timestamps with equal parts are equal. -/
@[ext] theorem ext {a b : Timestamp} (hs : a.seconds = b.seconds) (hn : a.nanos = b.nanos) :
    a = b := by
  cases a
  cases b
  simp_all

/-- Microseconds are a timestamp iff they are in range. -/
theorem ofMicros?_isSome_iff (m : Int) :
    (ofMicros? m).isSome ↔ minMicros ≤ m ∧ m ≤ maxMicros := by
  unfold ofMicros?
  split <;> simp_all

/-- A timestamp has the microseconds it is decoded from. -/
theorem micros_of_ofMicros? {m : Int} {t : Timestamp} (h : ofMicros? m = some t) :
    t.micros = m := by
  unfold ofMicros? at h
  split at h
  · cases h
    show m / 1000000 * 1000000 + (((m % 1000000).toNat * 1000 / 1000 : Nat) : Int) = m
    omega
  · cases h

/-- A decoded timestamp is in no leap second. -/
theorem not_isLeap_of_ofMicros? {m : Int} {t : Timestamp} (h : ofMicros? m = some t) :
    ¬ t.IsLeap := by
  unfold ofMicros? at h
  split at h
  · cases h
    show ¬ 1000000000 ≤ (m % 1000000).toNat * 1000
    omega
  · cases h

/-- Outside leap seconds the microseconds decode to the truncated timestamp. -/
theorem ofMicros?_micros {t : Timestamp} (h : ¬ t.IsLeap) :
    ofMicros? t.micros = some t.truncateToMicros := by
  have hs := t.seconds_mem
  have hn : t.nanos < 1000000000 := by
    have := h
    unfold IsLeap at this
    omega
  simp only [minSeconds, maxSeconds] at hs
  unfold ofMicros?
  rw [dif_pos (by simp only [minMicros, maxMicros, minSeconds, maxSeconds, micros]; omega)]
  congr 1
  apply Timestamp.ext
  · show t.micros / 1000000 = t.seconds
    unfold micros
    omega
  · show (t.micros % 1000000).toNat * 1000 = t.nanos - t.nanos % 1000
    unfold micros
    omega

/-- Truncation keeps the microseconds. -/
theorem micros_truncateToMicros (t : Timestamp) : t.truncateToMicros.micros = t.micros := by
  show t.seconds * 1000000 + ((t.nanos - t.nanos % 1000) / 1000 : Nat) = _
  unfold micros
  omega

end Timestamp
end UndoLog
