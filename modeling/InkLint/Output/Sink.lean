import InkLint.Fault

/-!
# Output that may fail

A sink keeps what was written to it. It may have a limit: a write that does not fit stores what
fits and fails, so the content is always a beginning of what was meant to be written. It may also
fail to flush.
-/

namespace InkLint

/-- A place where output goes. -/
structure Sink where
  content : Bytes := []
  /-- How many bytes it holds in all, if that is limited. -/
  limit : Option Nat := none
  /-- Whether it can be flushed. -/
  flushable : Bool := true
deriving DecidableEq, Repr

namespace Sink

/-- How many of `n` further bytes fit. -/
def room (s : Sink) (n : Nat) : Nat :=
  match s.limit with
  | none => n
  | some limit => min n (limit - s.content.length)

/-- Writes bytes, or as many as fit. -/
def write (s : Sink) (bytes : Bytes) : Except Fault Unit × Sink :=
  let fitting := bytes.take (s.room bytes.length)
  (if fitting.length = bytes.length then .ok () else .error .outputFull,
   { s with content := s.content ++ fitting })

/-- Writes pieces one after another, up to the first that does not fit. -/
def writeAll (s : Sink) : List Bytes → Except Fault Unit × Sink
  | [] => (.ok (), s)
  | piece :: rest =>
    match s.write piece with
    | (.error fault, s) => (.error fault, s)
    | (.ok (), s) => s.writeAll rest

/-- Flushes what was written. -/
def flush (s : Sink) : Except Fault Unit :=
  if s.flushable then .ok () else .error .flushFailed

/-- Without a limit every write succeeds and is stored whole. -/
theorem write_unlimited {s : Sink} (h : s.limit = none) (bytes : Bytes) :
    s.write bytes = (.ok (), { s with content := s.content ++ bytes }) := by
  simp [write, room, h]

end Sink

end InkLint
