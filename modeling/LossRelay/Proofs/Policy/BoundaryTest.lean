import LossRelay.Proofs.Policy.TraceTruth
import LossRelay.Proofs.Relay.Exactness

/-!
# The test for the end of a block

A packet ends a block if the silence before it is longer than the rule's.  The two are compared as
pairs of words, the one a difference with a borrow, the other computed from milliseconds.
`BlockState.observe_exact` says that the test is exact on the whole range of both, and that no step
of it overflows: `BlockState.observeChecked` is the same computation with every operation on words
checked, and it never fails.
-/

namespace LossRelay

/-! ### Checked arithmetic -/

namespace Checked

/-- A result, unless its computation overflows. -/
def keep {α : Type} (overflow : Bool) (result : α) : Option α :=
  if overflow then none else some result

def add64 (a b : UInt64) : Option UInt64 := keep (a.toBitVec.uaddOverflow b.toBitVec) (a + b)

def sub64 (a b : UInt64) : Option UInt64 := keep (a.toBitVec.usubOverflow b.toBitVec) (a - b)

def add32 (a b : UInt32) : Option UInt32 := keep (a.toBitVec.uaddOverflow b.toBitVec) (a + b)

def sub32 (a b : UInt32) : Option UInt32 := keep (a.toBitVec.usubOverflow b.toBitVec) (a - b)

def mul32 (a b : UInt32) : Option UInt32 := keep (a.toBitVec.umulOverflow b.toBitVec) (a * b)

theorem add64_eq_some {a b : UInt64} (h : a.toNat + b.toNat < 2 ^ 64) :
    add64 a b = some (a + b) := by
  simp [add64, keep, BitVec.uaddOverflow]
  omega

theorem sub64_eq_some {a b : UInt64} (h : b.toNat ≤ a.toNat) : sub64 a b = some (a - b) := by
  simp [sub64, keep, BitVec.usubOverflow, h]

theorem add32_eq_some {a b : UInt32} (h : a.toNat + b.toNat < 2 ^ 32) :
    add32 a b = some (a + b) := by
  simp [add32, keep, BitVec.uaddOverflow]
  omega

theorem sub32_eq_some {a b : UInt32} (h : b.toNat ≤ a.toNat) : sub32 a b = some (a - b) := by
  simp [sub32, keep, BitVec.usubOverflow, h]

theorem mul32_eq_some {a b : UInt32} (h : a.toNat * b.toNat < 2 ^ 32) :
    mul32 a b = some (a * b) := by
  simp [mul32, keep, BitVec.umulOverflow]
  omega

end Checked

open Checked

namespace Span

/-- The span of a number of seconds and a number of nanoseconds, if that is in normal form. -/
def ofParts? (seconds : UInt64) (nanos : UInt32) : Option Span :=
  if h : nanos.toNat < 1000000000 then some ⟨seconds, nanos, h⟩ else none

theorem ofParts?_parts (t : Span) : ofParts? t.seconds t.nanos = some t := dif_pos t.nanos_lt

def ofMillisChecked (ms : UInt64) : Option Span := do
  let nanos ← mul32 (ms % 1000).toUInt32 1000000
  ofParts? (ms / 1000) nanos

def sinceChecked (later earlier : Span) : Option Span :=
  if later < earlier then some zero
  else do
    let seconds ← sub64 later.seconds earlier.seconds
    if earlier.nanos ≤ later.nanos then
      let nanos ← sub32 later.nanos earlier.nanos
      ofParts? seconds nanos
    else
      let seconds ← sub64 seconds 1
      let nanos ← add32 later.nanos 1000000000
      let nanos ← sub32 nanos earlier.nanos
      ofParts? seconds nanos

theorem ofMillisChecked_eq (ms : UInt64) : ofMillisChecked ms = some (ofMillis ms) := by
  have hmod : (ms % 1000).toNat < 1000 := by
    rw [UInt64.toNat_mod]
    exact Nat.mod_lt _ (by decide)
  have hword : (ms % 1000).toUInt32.toNat = (ms % 1000).toNat := by
    rw [UInt64.toNat_toUInt32]
    exact Nat.mod_eq_of_lt (by omega)
  have hmul : (ms % 1000).toUInt32.toNat * (1000000 : UInt32).toNat < 2 ^ 32 := by
    rw [hword, show (1000000 : UInt32).toNat = 1000000 from rfl]
    omega
  unfold ofMillisChecked
  rw [mul32_eq_some hmul, Option.bind_eq_bind, Option.bind_some]
  exact ofParts?_parts (ofMillis ms)

theorem since_parts {later earlier : Span} (h : ¬ later < earlier)
    (hn : earlier.nanos ≤ later.nanos) :
    (later.since earlier).seconds = later.seconds - earlier.seconds ∧
      (later.since earlier).nanos = later.nanos - earlier.nanos := by
  unfold since
  rw [if_neg h, dif_pos hn]
  exact ⟨rfl, rfl⟩

/-- A difference for which a second is borrowed. -/
theorem since_parts_of_borrow {later earlier : Span} (h : ¬ later < earlier)
    (hn : ¬ earlier.nanos ≤ later.nanos) :
    (later.since earlier).seconds = later.seconds - earlier.seconds - 1 ∧
      (later.since earlier).nanos = later.nanos + 1000000000 - earlier.nanos := by
  unfold since
  rw [if_neg h, dif_neg hn]
  exact ⟨rfl, rfl⟩

theorem sinceChecked_eq (later earlier : Span) :
    later.sinceChecked earlier = some (later.since earlier) := by
  unfold sinceChecked
  by_cases hlt : later < earlier
  · unfold since
    rw [if_pos hlt, if_pos hlt]
  · have hseconds := UInt64.le_iff_toNat_le.mp (seconds_le_of_not_lt hlt)
    rw [if_neg hlt, sub64_eq_some hseconds, Option.bind_eq_bind, Option.bind_some]
    by_cases hnanos : earlier.nanos ≤ later.nanos
    · obtain ⟨hs, hn⟩ := since_parts hlt hnanos
      rw [if_pos hnanos, sub32_eq_some (UInt32.le_iff_toNat_le.mp hnanos), Option.bind_eq_bind,
        Option.bind_some, ← hs, ← hn]
      exact ofParts?_parts _
    · -- there is a second to borrow, and the nanoseconds with it fit their word
      obtain ⟨hs, hn⟩ := since_parts_of_borrow hlt hnanos
      have hborrow := UInt64.lt_iff_toNat_lt.mp (seconds_lt_of_borrow hlt hnanos)
      have hlate := later.nanos_lt
      have hearly := earlier.nanos_lt
      have hone : (1 : UInt64).toNat ≤ (later.seconds - earlier.seconds).toNat := by
        rw [UInt64.toNat_sub_of_le _ _ (UInt64.le_iff_toNat_le.mpr hseconds), UInt64.toNat_one]
        omega
      have hbillion : (1000000000 : UInt32).toNat = 1000000000 := rfl
      have hsum : later.nanos.toNat + (1000000000 : UInt32).toNat < 2 ^ 32 := by
        rw [hbillion]
        omega
      have hrest : earlier.nanos.toNat ≤ (later.nanos + 1000000000).toNat := by
        rw [UInt32.toNat_add, hbillion]
        omega
      rw [if_neg hnanos, sub64_eq_some hone, Option.bind_some, add32_eq_some hsum,
        Option.bind_eq_bind, Option.bind_some, sub32_eq_some hrest, Option.bind_some, ← hs, ← hn]
      exact ofParts?_parts _

theorem parts_eq (t : Span) :
    t.seconds.toNat = t.toNanos / 1000000000 ∧ t.nanos.toNat = t.toNanos % 1000000000 := by
  have hlt := t.nanos_lt
  unfold toNanos
  omega

end Span

/-! ### Checked observation -/

namespace BlockState

open BlockPolicy (stateAfter decideAll_stateAfter gapBefore_stateAfter observe_boundary)

def gapBeforeChecked (s : BlockState) (now : Span) : Option Span :=
  match s.latest with
  | some latest => now.sinceChecked latest
  | none => some .zero

/-- Counts a packet, with checks. -/
def observeChecked (s : BlockState) (now silence : Span) :
    Option (BlockState × Option Boundary) := do
  let packets ← add64 s.packets 1
  let gap ← s.gapBeforeChecked now
  if 1 < packets ∧ silence < gap then
    let packetsBefore ← sub64 packets 1
    let block ← add64 s.block 1
    some ({ s with packets, symbol := 0, block }, some ⟨packetsBefore, s.symbol, gap⟩)
  else if 1 < packets then
    let symbol ← add64 s.symbol 1
    some ({ s with packets, symbol }, none)
  else some ({ s with packets }, none)

theorem gapBeforeChecked_eq (s : BlockState) (now : Span) :
    s.gapBeforeChecked now = some (s.gapBefore now) := by
  unfold gapBeforeChecked gapBefore
  cases s.latest with
  | none => rfl
  | some latest => exact Span.sinceChecked_eq now latest

/-- Nothing overflows while the three counters have room. -/
theorem observeChecked_eq {s : BlockState} (now silence : Span)
    (hpackets : s.packets.toNat + 1 < 2 ^ 64) (hsymbol : s.symbol.toNat + 1 < 2 ^ 64)
    (hblock : s.block.toNat + 1 < 2 ^ 64) :
    s.observeChecked now silence = some (s.observe now silence) := by
  have hone : (1 : UInt64).toNat ≤ (s.packets + 1).toNat := by
    rw [UInt64.toNat_add, UInt64.toNat_one]
    omega
  unfold observeChecked observe
  rw [add64_eq_some hpackets, gapBeforeChecked_eq]
  dsimp only [Option.bind_eq_bind, Option.bind_some]
  split
  · rw [sub64_eq_some hone, add64_eq_some hblock]
    rfl
  · split
    · rw [add64_eq_some hsymbol]
      rfl
    · rfl

theorem toNat_packets_stateAfter (rule : BlockRule) {before : List Arrival}
    (hlength : before.length < 2 ^ 64 - 1) :
    (stateAfter rule before).packets.toNat = before.length :=
  UInt64.toNat_ofNat_of_lt' (Nat.lt_of_lt_of_le hlength (Nat.sub_le _ _))

/-- The comparison of the words is that of the integers. -/
theorem silence_lt_since_iff (rule : BlockRule) (now latest : Span) :
    rule.silence < now.since latest ↔
      (rule.silenceMs.toNat * 1000000 : Int) < now.toNanos - latest.toNanos := by
  unfold BlockRule.silence
  rw [Span.lt_iff_toNanos_lt, Span.toNanos_since, Span.toNanos_ofMillis]
  omega

/-- The silence before a packet that comes late enough is the exact difference. -/
theorem since_exact {rule : BlockRule} {now latest : Span} (h : rule.silence < now.since latest) :
    ((now.since latest).toNanos : Int) = now.toNanos - latest.toNanos := by
  rw [silence_lt_since_iff] at h
  rw [Span.toNanos_since]
  omega

theorem observe_stateAfter (rule : BlockRule) {before : List Arrival} (now : Span)
    {latest : Arrival} (hlatest : before.getLast? = some latest)
    (hlength : before.length < 2 ^ 64 - 1) :
    ((stateAfter rule before).observe now rule.silence).2 =
      if rule.silence < now.since latest.time then
        some ⟨(stateAfter rule before).packets, (stateAfter rule before).symbol,
          now.since latest.time⟩
      else none := by
  have hpos : 0 < before.length := List.length_pos_iff.mpr (by rintro rfl; cases hlatest)
  have hseen : 1 < (stateAfter rule before).packets + 1 := by
    rw [UInt64.lt_iff_toNat_lt, UInt64.toNat_add, UInt64.toNat_one,
      toNat_packets_stateAfter rule hlength]
    omega
  have hboundary := observe_boundary (stateAfter rule before) now rule.silence
  rw [gapBefore_stateAfter hlatest now] at hboundary
  simpa [hseen] using hboundary

/-- **The test for the end of a block is exact.**  Take a history of the block policy of at least
one and of fewer than `2 ^ 64 - 1` packets, with any times, and one more packet at any time.  It
ends a block if and only if the time since the latest packet, as a difference of integers, is
greater than the milliseconds of the rule; the silence that is reported is this difference, in
seconds and the rest in nanoseconds; a packet that does not come after the latest one ends no block;
and no operation overflows, neither of the conversion from milliseconds nor of the test. -/
theorem observe_exact (rule : BlockRule) (before : List Arrival) (now : Span) {latest : Arrival}
    (hlatest : before.getLast? = some latest) (hlength : before.length < 2 ^ 64 - 1) :
    let s := (LossPolicy.decideAll (BlockPolicy.mk rule .initial) before).2.state
    let waited : Int := now.toNanos - latest.time.toNanos
    let outcome := s.observe now rule.silence
    (outcome.2.isSome = true ↔ (rule.silenceMs.toNat * 1000000 : Int) < waited) ∧
    (∀ b, outcome.2 = some b → (b.gap.toNanos : Int) = waited ∧
      (b.gap.seconds.toNat : Int) = waited / 1000000000 ∧
      (b.gap.nanos.toNat : Int) = waited % 1000000000) ∧
    (now.toNanos ≤ latest.time.toNanos → outcome.2 = none) ∧
    Span.ofMillisChecked rule.silenceMs = some rule.silence ∧
    s.observeChecked now rule.silence = some outcome := by
  intro s waited outcome
  have hstate : s = stateAfter rule before :=
    congrArg BlockPolicy.state (decideAll_stateAfter rule before (by omega)).1
  have houtcome : outcome.2 =
      if rule.silence < now.since latest.time then
        some ⟨s.packets, s.symbol, now.since latest.time⟩
      else none := by
    have htold := observe_stateAfter rule now hlatest hlength
    rwa [← hstate] at htold
  -- every packet but the latest makes one of the two counters of positions and blocks grow
  have hcounters : s.symbol.toNat + s.block.toNat < before.length := by
    rw [hstate]
    refine BlockPolicy.symbol_add_block_lt (by omega) ?_
    rintro rfl
    cases hlatest
  have hpackets : s.packets.toNat = before.length :=
    hstate ▸ toNat_packets_stateAfter rule hlength
  refine ⟨?_, ?_, ?_, Span.ofMillisChecked_eq _,
    observeChecked_eq now _ (by omega) (by omega) (by omega)⟩
  · rw [houtcome, ← silence_lt_since_iff rule now latest.time]
    by_cases hsilence : rule.silence < now.since latest.time
    · simp [hsilence]
    · simp [hsilence]
  · intro b hb
    rw [houtcome] at hb
    split at hb
    · rename_i hsilence
      obtain rfl := Option.some.inj hb
      have hwaited : ((now.since latest.time).toNanos : Int) = waited := since_exact hsilence
      obtain ⟨hseconds, hnanos⟩ := (now.since latest.time).parts_eq
      refine ⟨hwaited, ?_, ?_⟩
      · rw [← hwaited, hseconds]
        rfl
      · rw [← hwaited, hnanos]
        rfl
    · cases hb
  · intro hback
    rw [houtcome, if_neg]
    rw [silence_lt_since_iff]
    omega

/-- Half a second after a packet at the very end of a second there is no end of a block, and one
nanosecond later there is. -/
theorem observe_exact_across_a_second :
    let rule : BlockRule := .reference
    let before : List Arrival := [⟨0, ⟨1, 999999999, by decide⟩, 8⟩]
    let s := (LossPolicy.decideAll (BlockPolicy.mk rule .initial) before).2.state
    (s.observe ⟨2, 499999999, by decide⟩ rule.silence).2.isSome = false ∧
      (s.observe ⟨2, 500000000, by decide⟩ rule.silence).2.isSome = true := by
  intro rule before s
  have hlength : before.length < 2 ^ 64 - 1 := by decide
  have hequal := (observe_exact rule before ⟨2, 499999999, by decide⟩ rfl hlength).1
  have hlonger := (observe_exact rule before ⟨2, 500000000, by decide⟩ rfl hlength).1
  refine ⟨?_, hlonger.mpr (by decide)⟩
  rw [Bool.eq_false_iff, Ne, hequal]
  decide

end BlockState

end LossRelay
