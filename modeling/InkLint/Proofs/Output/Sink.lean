import InkLint.Output.Sink
import Mathlib

/-!
# Sinks with a limit

It does not matter in how many pieces something is written (`writeAll_eq_write`). And a sink with a
limit holds what it would hold without one, cut off at the limit (`Sink.cut`): every write keeps
this so, whether it fits or not (`write_cut`).
-/

namespace InkLint

namespace Sink

variable {s : Sink} {limit : Nat}

/-- What a write to a sink with a limit does. -/
theorem write_limited (h : s.limit = some limit) (bytes : Bytes) :
    s.write bytes =
      (if bytes.length ≤ limit - s.content.length then .ok () else .error .outputFull,
        { s with content := s.content ++ bytes.take (limit - s.content.length) }) := by
  have hroom : bytes.take (min bytes.length (limit - s.content.length)) =
      bytes.take (limit - s.content.length) := by
    rw [List.take_eq_take_iff]
    omega
  have hwhole : min (limit - s.content.length) bytes.length = bytes.length ↔
      bytes.length ≤ limit - s.content.length := by
    omega
  simp only [write, room, h, hroom, List.length_take, hwhole]

/-- A write that succeeds stores everything. -/
theorem write_of_ok {bytes : Bytes} (h : (s.write bytes).1 = .ok ()) :
    s.write bytes = (.ok (), { s with content := s.content ++ bytes }) := by
  simp only [write] at h ⊢
  split at h
  · rename_i hlength
    rw [if_pos hlength, (List.take_prefix _ _).eq_of_length hlength]
  · cases h

/-! ## Pieces -/

/-- Writing two pieces is writing them in one. -/
theorem write_append (s : Sink) (a b : Bytes) :
    s.write (a ++ b) =
      match s.write a with
      | (.error fault, s) => (.error fault, s)
      | (.ok (), s) => s.write b := by
  cases h : s.limit with
  | none =>
    rw [write_unlimited h, write_unlimited h]
    simp [write_unlimited (s := { s with content := s.content ++ a }) h]
  | some limit =>
    rw [write_limited h, write_limited h]
    by_cases hfits : a.length ≤ limit - s.content.length
    · have hrest := write_limited (s := { s with content := s.content ++ a }) h b
      have hiff : (a ++ b).length ≤ limit - s.content.length ↔
          b.length ≤ limit - (s.content ++ a).length := by
        simp only [List.length_append]
        omega
      have hroom : limit - s.content.length - a.length = limit - (s.content ++ a).length := by
        simp only [List.length_append]
        omega
      simp only [if_pos hfits, List.take_of_length_le hfits, hrest, hiff, List.take_append, hroom,
        List.append_assoc]
    · have hlong : ¬(a ++ b).length ≤ limit - s.content.length := by
        simp only [List.length_append]
        omega
      have hfull : limit - s.content.length ≤ a.length := by omega
      simp only [if_neg hfits, if_neg hlong, List.take_append_of_le_length hfull]

/-- In how many pieces something is written makes no difference. -/
theorem writeAll_eq_write (s : Sink) (pieces : List Bytes) :
    s.writeAll pieces = s.write pieces.flatten := by
  induction pieces generalizing s with
  | nil => simp [writeAll, write, room]
  | cons piece rest ih =>
    rw [writeAll, List.flatten_cons, write_append]
    cases s.write piece with
    | mk answer written =>
      cases answer with
      | error fault => rfl
      | ok _ => exact ih written

/-! ## Limits -/

/-- The sink as it would be if it had had a limit all the time. -/
def cut (limit : Nat) (s : Sink) : Sink :=
  { s with content := s.content.take limit, limit := some limit }

/-- A write fails if it is not empty and what is written in all exceeds the limit. What is stored
is what would be stored without the limit, up to the limit. -/
theorem write_cut (limit : Nat) (h : s.limit = none) (bytes : Bytes) :
    (s.cut limit).write bytes =
      (if bytes = [] ∨ (s.content ++ bytes).length ≤ limit then .ok () else .error .outputFull,
        (s.write bytes).2.cut limit) := by
  have hiff : bytes.length ≤ limit - s.content.length ↔
      bytes = [] ∨ (s.content ++ bytes).length ≤ limit := by
    rw [← List.length_eq_zero_iff, List.length_append]
    omega
  have hroom : limit - (s.content.take limit).length = limit - s.content.length := by
    rw [List.length_take]
    omega
  rw [write_limited (s := s.cut limit) rfl, write_unlimited h]
  simp only [cut, hroom, hiff, List.take_append]

/-- What goes beyond the limit is not stored. -/
theorem cut_append_of_le {bytes : Bytes} (h : limit ≤ s.content.length) :
    { s with content := s.content ++ bytes }.cut limit = s.cut limit := by
  simp only [cut, List.take_append_of_le_length h]

end Sink

end InkLint
