import Mathlib.Data.Int.Order.Basic

/-!
# Stores of counters that expire

What a limiter relies on, whoever keeps the counters: a counter that is not seen begins at one, one that is seen goes
up by one, and what is seen at a later instant was seen before. A counter that has expired is not seen, and it is up to
the store when it is removed. `Fits` says when a store keeps what it has while it counts: one of bounded size may have
to drop something.
-/

universe u v

/-- The operations on counters, and their laws. -/
structure CounterStore (σ : Type u) (κ : Type v) where
  /-- Count under a key at an instant, with the lifetime of a new counter. -/
  increment : σ → κ → ℤ → ℤ → ℤ × σ
  read : σ → κ → ℤ → Option ℤ × σ
  clear : σ → κ → σ
  /-- The count that is seen at an instant. -/
  seen : σ → κ → ℤ → Option ℤ
  Fits : σ → κ → ℤ → Prop
  seen_of_le {s k c now later} : now ≤ later → seen s k later = some c → seen s k now = some c
  increment_count {s k now window} : (increment s k now window).1 = (seen s k now).getD 0 + 1
  increment_self {s k now later window c} : now ≤ later → seen (increment s k now window).2 k later = some c →
    c = (increment s k now window).1
  increment_other {s k j now later window} : Fits s k now → j ≠ k → now ≤ later →
    seen (increment s k now window).2 j later = seen s j later
  read_count {s k now} : (read s k now).1 = seen s k now
  read_seen {s k j now later} : now ≤ later → seen (read s k now).2 j later = seen s j later
  clear_self {s k now} : seen (clear s k) k now = none
  clear_other {s k j now} : j ≠ k → seen (clear s k) j now = seen s j now
