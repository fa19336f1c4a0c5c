import Overseer.Log.Reading
import Overseer.Proofs.Text.Ascii

/-! What stands before a line in a record. `lead_bytes`: for a time in the years 0 to 9999 it is
27 bytes and the marker of the stream, without a newline. -/

namespace Overseer

open Text (IsField)

namespace Timestamp

/-- A reading of the wall clock in the years 0 to 9999. -/
structure FourDigit (now : Timestamp) : Prop where
  low : 0 ≤ now.date.year
  high : now.date.year ≤ 9999
  nanos : now.nanos < 2 * nanosPerSecond

/-- A number that has no more digits than the width is padded to just the width. -/
theorem padded_field {width n : Nat} (h : (Nat.toDigits 10 n).length ≤ width) :
    IsField width (padded width n) := by
  have hlist : (padded width n).toList =
      List.replicate (width - (Nat.toDigits 10 n).length) '0' ++ Nat.toDigits 10 n := by
    rw [padded, String.toList_append, Text.toList_pushn, Nat.toList_repr, ← String.length_toList,
      Nat.toList_repr]
  have hdigit : ∀ c ∈ (padded width n).toList, c.isDigit = true := by
    intro c hc
    rw [hlist] at hc
    rcases List.mem_append.mp hc with hc | hc
    · rw [List.eq_of_mem_replicate hc]
      rfl
    · exact Nat.isDigit_of_mem_toDigits (by decide) (by decide) hc
  refine ⟨?_, Text.isAscii_of_isDigit hdigit, fun hm => ?_⟩
  · rw [hlist, List.length_append, List.length_replicate]
    omega
  · exact absurd (hdigit _ hm) (by decide)

/-- A day of a year that begins in March is at most the last of a few days too many. -/
private theorem dayOfYear_lt (day : Nat) :
    day - (365 * ((day - day / 1460 + day / 36524 - day / 146096) / 365) +
      (day - day / 1460 + day / 36524 - day / 146096) / 365 / 4 -
      (day - day / 1460 + day / 36524 - day / 146096) / 365 / 100) < 466 + day / 1460 := by
  omega

theorem month_lt (days : Int) : (Date.ofDays days).month < 100 := by
  have hday : ((days + 719468).fmod 146097).toNat < 146097 := by
    have := Int.fmod_lt_of_pos (days + 719468) (by decide : (0 : Int) < 146097)
    omega
  have hyear := dayOfYear_lt ((days + 719468).fmod 146097).toNat
  simp only [Date.ofDays]
  split
  · omega
  · omega

theorem day_lt (days : Int) : (Date.ofDays days).day < 100 := by
  simp only [Date.ofDays]
  omega

/-- The time of a record takes 24 characters. -/
theorem record_field {now : Timestamp} (h : now.FourDigit) : IsField 24 now.record := by
  have hyear : IsField 4 (yearText now.date.year) := by
    rw [yearText, if_pos ⟨h.low, h.high⟩]
    refine padded_field ((Nat.length_toDigits_le_iff (by decide) (by decide)).mpr ?_)
    have := h.high
    omega
  have hclock : now.secondOfDay < 86400 := by
    have := Int.fmod_lt_of_pos now.seconds (by decide : (0 : Int) < 86400)
    rw [secondOfDay]
    omega
  have hnanos : now.nanos / nanosPerSecond < 2 :=
    Nat.div_lt_of_lt_mul (by rw [Nat.mul_comm]; exact h.nanos)
  have hmilli : now.nanos % nanosPerSecond / nanosPerMilli < 1000 := by
    have := Nat.mod_lt now.nanos (by decide : 0 < nanosPerSecond)
    exact Nat.div_lt_of_lt_mul (by rwa [nanosPerSecond] at this)
  have two : ∀ n, n < 100 → IsField 2 (padded 2 n) := fun n hn =>
    padded_field ((Nat.length_toDigits_le_iff (by decide) (by decide)).mpr hn)
  have hfraction : IsField 3 (padded 3 (now.nanos % nanosPerSecond / nanosPerMilli)) :=
    padded_field ((Nat.length_toDigits_le_iff (by decide) (by decide)).mpr hmilli)
  have hdash : IsField 1 "-" := by decide
  have hT : IsField 1 "T" := by decide
  have hcolon : IsField 1 ":" := by decide
  have hdate : IsField 10 (yearText now.date.year ++ "-" ++ padded 2 now.date.month ++ "-" ++
      padded 2 now.date.day) :=
    (((hyear.append hdash).append (two _ (month_lt _))).append hdash).append (two _ (day_lt _))
  have hsecond : IsField 19 now.toSecond :=
    (((((hdate.append hT).append (two _ (by omega))).append hcolon).append
      (two _ (by omega))).append hcolon).append (two _ (by omega))
  have hdot : IsField 1 "." := by decide
  have hZ : IsField 1 "Z" := by decide
  exact ((hsecond.append hdot).append hfraction).append hZ

end Timestamp

namespace Log

/-- What stands before a line, without the marker. -/
def stamp (now : Timestamp) : List UInt8 := (now.record ++ " | ").toUTF8.data.toList

theorem stamp_field {now : Timestamp} (h : now.FourDigit) :
    IsField leadLength (now.record ++ " | ") := by
  have hbar : IsField 3 " | " := by decide
  exact (Timestamp.record_field h).append hbar

theorem length_stamp {now : Timestamp} (h : now.FourDigit) : (stamp now).length = leadLength :=
  (stamp_field h).length_bytes

theorem newline_not_mem_stamp {now : Timestamp} (h : now.FourDigit) : newline ∉ stamp now :=
  (stamp_field h).newline_not_mem_bytes

/-- The bytes between the time and the line. -/
def Stream.mark : Stream → List UInt8
  | .stdout => []
  | .stderr => markerBytes

theorem record_bytes (now : Timestamp) (stream : Stream) (line : ByteArray) :
    (record now stream line).data.toList =
      stamp now ++ stream.mark ++ line.data.toList ++ [newline] := by
  have hlead : (stream.lead now).toUTF8.data.toList = stamp now ++ stream.mark := by
    cases stream with
    | stdout => simp [Stream.lead, stamp, Stream.mark]
    | stderr => simp [Stream.lead, stamp, Stream.mark, markerBytes]
  rw [record, ByteArray.data_push, Array.toList_push, ByteArray.data_append, Array.toList_append,
    hlead]

end Log

end Overseer
