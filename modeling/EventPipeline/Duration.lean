/-! # Spans of time

A `Duration` is a number of whole seconds below `2 ^ 64` and of nanoseconds below one second, so it
denotes `toNanos` nanoseconds and each span has one form. `saturatingMul` multiplies in that split
form, carrying whole seconds over, and stays at the greatest span where the product is too large. A
`Timer` cannot tell when the longest spans are over.
-/

namespace EventPipeline

/-- A span of time. -/
structure Duration where
  secs : Nat
  nanos : Nat
  secs_lt : secs < 0x1_0000_0000_0000_0000
  nanos_lt : nanos < 1_000_000_000
  deriving DecidableEq

namespace Duration

/-- The span as a number of nanoseconds. -/
def toNanos (d : Duration) : Nat := d.secs * 1_000_000_000 + d.nanos

/-- No time at all. -/
def zero : Duration := ⟨0, 0, by decide, by decide⟩

/-- The greatest span. -/
def greatest : Duration := ⟨0xFFFF_FFFF_FFFF_FFFF, 999_999_999, by decide, by decide⟩

instance : Inhabited Duration := ⟨zero⟩

/-- The span of a number of nanoseconds, or the greatest one if that is too many. -/
def ofNanos (n : Nat) : Duration :=
  if h : n / 1_000_000_000 < 0x1_0000_0000_0000_0000 then
    ⟨n / 1_000_000_000, n % 1_000_000_000, h, Nat.mod_lt _ (by decide)⟩
  else greatest

/-- The span of a number of milliseconds. -/
def ofMillis (n : Nat) : Duration := ofNanos (n * 1_000_000)

/-- The span of a number of seconds. -/
def ofSecs (n : Nat) : Duration := ofNanos (n * 1_000_000_000)

/-- The whole milliseconds of a span, modulo `2 ^ 64`. -/
def millis (d : Duration) : Nat := (d.secs * 1000 + d.nanos / 1_000_000) % 0x1_0000_0000_0000_0000

/-- Whether the span is no time at all. -/
def isZero (d : Duration) : Bool := d.secs == 0 && d.nanos == 0

/-- Whether one span is shorter than another. -/
def shorter (d e : Duration) : Bool := d.secs < e.secs || (d.secs == e.secs && d.nanos < e.nanos)

/-- The shorter of two spans. -/
def min (d e : Duration) : Duration := if e.shorter d then e else d

/-- A span taken `n` times, or the greatest span if that is too long. -/
def saturatingMul (d : Duration) (n : Nat) : Duration :=
  let nanos := d.nanos * n
  let secs := d.secs * n + nanos / 1_000_000_000
  if h : secs < 0x1_0000_0000_0000_0000 then
    ⟨secs, nanos % 1_000_000_000, h, Nat.mod_lt _ (by decide)⟩
  else greatest

end Duration

/-- A clock that spans are timed with. It overflows when `limit` nanoseconds have passed. -/
structure Timer where
  limit : Nat
  limit_pos : 0 < limit

namespace Timer

/-- A clock that counts seconds below `2 ^ 63` and has counted an hour of them. -/
def standard : Timer := ⟨(0x8000_0000_0000_0000 - 3600) * 1_000_000_000, by decide⟩

/-- Whether a span is so long that the clock cannot tell when it is over. -/
def outlastedBy (t : Timer) (d : Duration) : Bool := t.limit ≤ d.toNanos

end Timer

end EventPipeline
