import LossRelay.Span

/-!
# Spans in nanoseconds

The order of spans, their difference and the conversion from milliseconds, read through
`Span.toNanos` as statements about natural numbers:

* `Span.lt_iff_toNanos_lt`: the order is the order of the nanoseconds;
* `Span.toNanos_since`: the difference is the truncated difference of the nanoseconds;
* `Span.toNanos_ofMillis`: a millisecond has a million nanoseconds, without overflow.
-/

namespace LossRelay.Span

/-! ### Order -/

theorem lt_iff_toNanos_lt {t u : Span} : t < u ↔ t.toNanos < u.toNanos := by
  have ht := t.nanos_lt
  have hu := u.nanos_lt
  rw [lt_def, UInt64.lt_iff_toNat_lt, UInt32.lt_iff_toNat_lt, ← UInt64.toNat_inj]
  unfold toNanos
  omega

/-! ### Difference -/

theorem seconds_le_of_not_lt {later earlier : Span} (h : ¬ later < earlier) :
    earlier.seconds ≤ later.seconds := by
  rw [UInt64.le_iff_toNat_le]
  rw [lt_iff_toNanos_lt] at h
  have hl := later.nanos_lt
  have he := earlier.nanos_lt
  unfold toNanos at h
  omega

/-- Where a second is borrowed there is one to borrow. -/
theorem seconds_lt_of_borrow {later earlier : Span} (h : ¬ later < earlier)
    (hn : ¬ earlier.nanos ≤ later.nanos) : earlier.seconds < later.seconds := by
  rw [UInt64.lt_iff_toNat_lt]
  rw [lt_iff_toNanos_lt] at h
  rw [UInt32.le_iff_toNat_le] at hn
  have he := earlier.nanos_lt
  unfold toNanos at h
  omega

/-- **The difference of two spans is exact**, and zero where it would be negative. -/
theorem toNanos_since (later earlier : Span) :
    (later.since earlier).toNanos = later.toNanos - earlier.toNanos := by
  have hl := later.nanos_lt
  have he := earlier.nanos_lt
  unfold since
  split
  · rename_i h
    rw [lt_iff_toNanos_lt] at h
    rw [Nat.sub_eq_zero_of_le (Nat.le_of_lt h)]
    rfl
  · rename_i h
    have hs := seconds_le_of_not_lt h
    split
    · rename_i hn
      unfold toNanos
      rw [UInt64.toNat_sub_of_le _ _ hs, UInt32.toNat_sub_of_le _ _ hn]
      rw [UInt64.le_iff_toNat_le] at hs
      rw [UInt32.le_iff_toNat_le] at hn
      omega
    · rename_i hn
      have hlt := seconds_lt_of_borrow h hn
      rw [UInt64.lt_iff_toNat_lt] at hlt
      rw [UInt32.le_iff_toNat_le] at hn
      have hd := UInt64.toNat_sub_of_le _ _ hs
      have h1 : (1 : UInt64) ≤ later.seconds - earlier.seconds := by
        rw [UInt64.le_iff_toNat_le, hd, show (1 : UInt64).toNat = 1 from rfl]
        omega
      unfold toNanos
      rw [UInt64.toNat_sub_of_le _ _ h1, hd, UInt32.toNat_sub, UInt32.toNat_add,
        show (1 : UInt64).toNat = 1 from rfl,
        show (1000000000 : UInt32).toNat = 1000000000 from rfl]
      omega

/-! ### Milliseconds -/

theorem toNanos_ofMillis (ms : UInt64) : (ofMillis ms).toNanos = ms.toNat * 1000000 := by
  have hr : (ms % 1000).toNat = ms.toNat % 1000 := by
    rw [UInt64.toNat_mod, show (1000 : UInt64).toNat = 1000 from rfl]
  have hlt : (ms % 1000).toNat < 1000 := by rw [hr]; exact Nat.mod_lt _ (by decide)
  unfold toNanos ofMillis
  rw [UInt64.toNat_div, UInt32.toNat_mul, UInt64.toNat_toUInt32,
    show (1000000 : UInt32).toNat = 1000000 from rfl, show (1000 : UInt64).toNat = 1000 from rfl,
    Nat.mod_eq_of_lt (by omega : (ms % 1000).toNat < 2 ^ 32),
    Nat.mod_eq_of_lt (by omega : (ms % 1000).toNat * 1000000 < 2 ^ 32), hr]
  omega

end LossRelay.Span
