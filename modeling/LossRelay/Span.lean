/-!
# Spans of time

A span is a count of whole seconds and a count of nanoseconds below one second, both machine
words.  `Span.toNanos` reads it as one number; the order, the difference and the conversion from
milliseconds are stated through that view.
-/

namespace LossRelay

/-- A span of time in normal form: the nanoseconds stay below one second. -/
structure Span where
  seconds : UInt64
  nanos : UInt32
  nanos_lt : nanos.toNat < 1000000000 := by decide
  deriving DecidableEq

namespace Span

def zero : Span := ⟨0, 0, by decide⟩

instance : Inhabited Span := ⟨zero⟩

def toNanos (t : Span) : Nat := t.seconds.toNat * 1000000000 + t.nanos.toNat

/-- The span of `n` nanoseconds, with the seconds taken modulo the width of the word. -/
def ofNanos (n : Nat) : Span where
  seconds := UInt64.ofNat (n / 1000000000)
  nanos := UInt32.ofNat (n % 1000000000)
  nanos_lt := by
    have h : n % 1000000000 < 1000000000 := Nat.mod_lt _ (by decide)
    rw [UInt32.toNat_ofNat']
    exact Nat.lt_of_le_of_lt (Nat.mod_le _ _) h

/-- The span of `ms` milliseconds. -/
def ofMillis (ms : UInt64) : Span where
  seconds := ms / 1000
  nanos := (ms % 1000).toUInt32 * 1000000
  nanos_lt := by
    have h : (ms % 1000).toNat < 1000 := by
      rw [UInt64.toNat_mod]
      exact Nat.mod_lt _ (by decide)
    rw [UInt32.toNat_mul, UInt64.toNat_toUInt32, show (1000000 : UInt32).toNat = 1000000 from rfl,
      Nat.mod_eq_of_lt (by omega : (ms % 1000).toNat < 2 ^ 32),
      Nat.mod_eq_of_lt (by omega : (ms % 1000).toNat * 1000000 < 2 ^ 32)]
    omega

/-! ### Order and difference -/

/-- One span is shorter than another: by its seconds, then by its nanoseconds. -/
def Shorter (t u : Span) : Prop :=
  t.seconds < u.seconds ∨ t.seconds = u.seconds ∧ t.nanos < u.nanos

instance : LT Span := ⟨Shorter⟩

instance (t u : Span) : Decidable (t < u) :=
  inferInstanceAs (Decidable (t.seconds < u.seconds ∨ t.seconds = u.seconds ∧ t.nanos < u.nanos))

theorem lt_def {t u : Span} :
    t < u ↔ t.seconds < u.seconds ∨ t.seconds = u.seconds ∧ t.nanos < u.nanos := Iff.rfl

/-- The time from `earlier` to `later`; zero where `later` does not come after it. -/
def since (later earlier : Span) : Span :=
  if later < earlier then zero
  else if h : earlier.nanos ≤ later.nanos then
    { seconds := later.seconds - earlier.seconds
      nanos := later.nanos - earlier.nanos
      nanos_lt := by
        have hl := later.nanos_lt
        have hle := UInt32.le_iff_toNat_le.mp h
        rw [UInt32.toNat_sub_of_le _ _ h]
        omega }
  else
    { seconds := later.seconds - earlier.seconds - 1
      nanos := later.nanos + 1000000000 - earlier.nanos
      nanos_lt := by
        have hl := later.nanos_lt
        have he := earlier.nanos_lt
        have hgt : ¬ earlier.nanos.toNat ≤ later.nanos.toNat := fun g =>
          h (UInt32.le_iff_toNat_le.mpr g)
        rw [UInt32.toNat_sub, UInt32.toNat_add,
          show (1000000000 : UInt32).toNat = 1000000000 from rfl]
        omega }

/-! ### Milliseconds as a double -/

/-- The span in milliseconds, rounded at each step: the nanoseconds to a share of a second, the
sum with the seconds, and the product with a thousand. -/
def millis (t : Span) : Float :=
  (t.seconds.toFloat + t.nanos.toUInt64.toFloat / 1000000000.0) * 1000.0

end Span

end LossRelay
