/-!
# Spans of time in words

A span of time is told in the largest unit of which it is more than about one and a half, as a
rounded number.
-/

namespace CodeAtlas

namespace Elapsed

/-- The units of time in milliseconds, largest first. -/
def units : List (Nat × String) :=
  [(31536000000, "year"), (604800000, "week"), (86400000, "day"), (3600000, "hour"),
   (60000, "minute"), (1000, "second")]

/-- The unit for a span: the first that it exceeds by half, give or take half of the next unit,
or else the last. -/
def unitFor (span : Nat) : List (Nat × String) → Nat × String
  | u :: next :: rest =>
    if u.1 + u.1 / 2 ≤ span + next.1 / 2 then u else unitFor span (next :: rest)
  | [u] => u
  | [] => (1, "")

/-- A span of milliseconds in words. Of all units but the last there are two at least. -/
def words (span : Nat) : String :=
  let (unit, name) := unitFor span units
  let rounded := (2 * span + unit) / (2 * unit)
  let count := if name = "second" then rounded else max rounded 2
  if count = 1 then s!"{count} {name}" else s!"{count} {name}s"

end Elapsed

end CodeAtlas
