import LossRelay.Proofs.Relay.Script
import Mathlib.Algebra.Order.BigOperators.Group.List
import Mathlib.Algebra.Order.Group.Nat

/-!
# Accounts

The exact counts of what a relay did, as natural numbers, and how they are added to its counters,
which are machine words.
-/

namespace LossRelay

/-- Exact counts, for each counter of a relay but the one for lost trace events. -/
structure Account where
  received : Nat
  bytesReceived : Nat
  truncated : Nat
  dropped : Nat
  forwarded : Nat
  bytesForwarded : Nat
  sendFailures : Nat
  receiveFailures : Nat
  deriving DecidableEq

/-- What the counters of a relay say, as numbers. -/
def Tally.account (t : Tally) : Account where
  received := t.received.toNat
  bytesReceived := t.bytesReceived.toNat
  truncated := t.truncated.toNat
  dropped := t.dropped.toNat
  forwarded := t.forwarded.toNat
  bytesForwarded := t.bytesForwarded.toNat
  sendFailures := t.sendFailures.toNat
  receiveFailures := t.receiveFailures.toNat

namespace Account

/-- The counts of datagrams, of the verdicts on them, of attempts with their answers, and of
failed receives. -/
def of (limit : Nat) (ds : List Datagram) (verdicts : List Verdict)
    (answers : List (Attempt × SendOutcome)) (failures : Nat) : Account where
  received := ds.length
  bytesReceived := (ds.map fun d => min d.payload.length limit).sum
  truncated := ds.countP fun d => limit < d.payload.length
  dropped := verdicts.count .drop
  forwarded := answers.countP fun a => !a.2.isFault
  bytesForwarded := (answers.map fun a => a.2.bytes a.1.payload.length).sum
  sendFailures := answers.countP fun a => a.2.isFault
  receiveFailures := failures

def plus (a b : Account) : Account where
  received := a.received + b.received
  bytesReceived := a.bytesReceived + b.bytesReceived
  truncated := a.truncated + b.truncated
  dropped := a.dropped + b.dropped
  forwarded := a.forwarded + b.forwarded
  bytesForwarded := a.bytesForwarded + b.bytesForwarded
  sendFailures := a.sendFailures + b.sendFailures
  receiveFailures := a.receiveFailures + b.receiveFailures

/-- The counters after all of an account has been counted. -/
def addTo (a : Account) (t : Tally) : Tally :=
  { t with
    received := t.received + .ofNat a.received
    bytesReceived := t.bytesReceived + .ofNat a.bytesReceived
    truncated := t.truncated + .ofNat a.truncated
    dropped := t.dropped + .ofNat a.dropped
    forwarded := t.forwarded + .ofNat a.forwarded
    bytesForwarded := t.bytesForwarded + .ofNat a.bytesForwarded
    sendFailures := t.sendFailures + .ofNat a.sendFailures
    receiveFailures := t.receiveFailures + .ofNat a.receiveFailures }

theorem of_append (limit : Nat) (ds ds' : List Datagram) (vs vs' : List Verdict)
    (as as' : List (Attempt × SendOutcome)) (n n' : Nat) :
    of limit (ds ++ ds') (vs ++ vs') (as ++ as') (n + n') =
      (of limit ds vs as n).plus (of limit ds' vs' as' n') := by
  simp [of, plus]

theorem of_nil (limit : Nat) (t : Tally) : (of limit [] [] [] 0).addTo t = t := by
  simp [of, addTo]

theorem plus_addTo (a b : Account) (t : Tally) : (a.plus b).addTo t = b.addTo (a.addTo t) := by
  simp [plus, addTo, UInt64.add_assoc]

/-! ### Counters as numbers -/

/-- Every count fits a counter. -/
structure Fits (a : Account) : Prop where
  received : a.received < 2 ^ 64
  bytesReceived : a.bytesReceived < 2 ^ 64
  truncated : a.truncated < 2 ^ 64
  dropped : a.dropped < 2 ^ 64
  forwarded : a.forwarded < 2 ^ 64
  bytesForwarded : a.bytesForwarded < 2 ^ 64
  sendFailures : a.sendFailures < 2 ^ 64
  receiveFailures : a.receiveFailures < 2 ^ 64

theorem toNat_zero_add_ofNat {n : Nat} (h : n < 2 ^ 64) : ((0 : UInt64) + .ofNat n).toNat = n := by
  rw [UInt64.zero_add]
  exact UInt64.toNat_ofNat_of_lt' h

/-- Counters that started at zero say exactly what was counted, as long as it fits. -/
theorem account_addTo_zero {a : Account} (h : a.Fits) : (a.addTo .zero).account = a := by
  obtain ⟨h1, h2, h3, h4, h5, h6, h7, h8⟩ := h
  unfold Tally.account addTo Tally.zero
  simp only [toNat_zero_add_ofNat h1, toNat_zero_add_ofNat h2, toNat_zero_add_ofNat h3,
    toNat_zero_add_ofNat h4, toNat_zero_add_ofNat h5, toNat_zero_add_ofNat h6,
    toNat_zero_add_ofNat h7, toNat_zero_add_ofNat h8]

/-! ### Conservation -/

theorem count_verdicts (vs : List Verdict) : vs.count .forward + vs.count .drop = vs.length := by
  induction vs with
  | nil => rfl
  | cons v vs ih => cases v <;> simp <;> omega

theorem count_answers (answers : List (Attempt × SendOutcome)) :
    (answers.countP fun a => !a.2.isFault) + (answers.countP fun a => a.2.isFault) =
      answers.length := by
  induction answers with
  | nil => rfl
  | cons a answers ih => cases h : a.2.isFault <;> simp [h] <;> omega

section Conservation

variable {limit : Nat} {ds : List Datagram} {vs : List Verdict} {remote : Endpoint}
  {answers : List (Attempt × SendOutcome)} (failures : Nat)

/-- **Nothing is lost.**  If the attempts are those that the verdicts call for, every datagram
received was forwarded, was dropped, or failed to be sent. -/
theorem received_eq (hlen : ds.length = vs.length)
    (hsent : answers.map Prod.fst = (passed limit ds vs).map (Attempt.mk remote)) :
    (of limit ds vs answers failures).received =
      (of limit ds vs answers failures).forwarded + (of limit ds vs answers failures).dropped +
        (of limit ds vs answers failures).sendFailures := by
  have hattempts : answers.length = vs.count .forward := by
    have h := congrArg List.length hsent
    rw [List.length_map, List.length_map, length_passed limit hlen] at h
    exact h
  have hanswers := count_answers answers
  have hverdicts := count_verdicts vs
  simp only [of]
  omega

/-- A socket that never reports more bytes than it was given does not forward more bytes than were
received. -/
theorem bytesForwarded_le
    (hsent : answers.map Prod.fst = (passed limit ds vs).map (Attempt.mk remote))
    (hhonest : ∀ a ∈ answers, a.2.bytes a.1.payload.length ≤ a.1.payload.length) :
    (of limit ds vs answers failures).bytesForwarded ≤
      (of limit ds vs answers failures).bytesReceived := by
  have hpayloads : answers.map (fun a => a.1.payload.length) =
      (passed limit ds vs).map List.length := by
    have h := congrArg (List.map fun a : Attempt => a.payload.length) hsent
    rw [List.map_map, List.map_map] at h
    exact h
  calc (answers.map fun a => a.2.bytes a.1.payload.length).sum
      ≤ (answers.map fun a => a.1.payload.length).sum := List.sum_le_sum hhonest
    _ = ((passed limit ds vs).map List.length).sum := by rw [hpayloads]
    _ ≤ (ds.map fun d => min d.payload.length limit).sum := sum_passed_le limit ds vs

end Conservation

end Account

end LossRelay
