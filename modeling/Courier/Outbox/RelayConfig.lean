import Courier.Json.Typed

/-!
# Relay settings

How often the relay looks into the outbox and how many rows it takes at a time.
-/

namespace Courier

/-- A span of time in nanoseconds. -/
structure Duration where
  nanos : Nat
  deriving DecidableEq, Repr

namespace Duration

/-- Nanoseconds in a second. -/
def second : Nat := 1000000000

def ofParts (secs nanos : Nat) : Duration :=
  ⟨secs * second + nanos⟩

def ofMillis (millis : Nat) : Duration :=
  ⟨millis * 1000000⟩

/-- Whole seconds. -/
def secs (d : Duration) : Nat :=
  d.nanos / second

/-- The nanoseconds beyond the whole seconds. -/
def subsecNanos (d : Duration) : Nat :=
  d.nanos % second

/-- Whole milliseconds. -/
def millis (d : Duration) : Nat :=
  d.nanos / 1000000

open Json Json.Reader in
/-- Reads a duration from seconds and nanoseconds, whose sum must have less than 2^64 seconds. -/
def reader : Json.Reader Duration :=
  .record ((0, 0) : Nat × Nat) [
      .required "secs" (natBelow UInt64.size) fun secs p => (secs, p.2),
      .required "nanos" (natBelow UInt32.size) fun nanos p => (p.1, nanos)]
    .refused fun (secs, nanos) =>
      let d := ofParts secs nanos
      if d.secs < UInt64.size then .ok d else .error (.mismatch .other)

end Duration

/-- The settings of a relay. -/
structure RelayConfig where
  /-- The time between two looks into the outbox. -/
  pollInterval : Duration := Duration.ofParts 1 0
  /-- Rows taken at a time. -/
  batchSize : Nat := 100
  deriving DecidableEq, Repr

namespace RelayConfig

def withPollInterval (c : RelayConfig) (pollInterval : Duration) : RelayConfig :=
  { c with pollInterval }

def withBatchSize (c : RelayConfig) (batchSize : Nat) : RelayConfig :=
  { c with batchSize }

/-- The settings in use: a zero means the default. -/
def normalized (c : RelayConfig) : RelayConfig where
  pollInterval := if c.pollInterval.nanos = 0 then Duration.ofParts 1 0 else c.pollInterval
  batchSize := if c.batchSize = 0 then 100 else c.batchSize

open Json Json.Reader in
/-- Reads relay settings from JSON. -/
def reader : Json.Reader RelayConfig :=
  .plainRecord {} [
    .defaulted "poll_interval" Duration.reader fun pollInterval c => { c with pollInterval },
    .defaulted "batch_size" (natBelow UInt64.size) fun batchSize c => { c with batchSize }]

end RelayConfig

end Courier
