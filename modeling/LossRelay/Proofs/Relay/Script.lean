import LossRelay.Relay.Session
import Mathlib.Algebra.GroupWithZero.Nat

/-!
# Scripts

What passes through a relay, said without its loop: the datagrams and the failures of a script, how
datagrams are numbered and what a policy learns of them, which payloads pass for given verdicts, and
which answer each attempt to send gets.
-/

namespace LossRelay

/-! ### Parts of a script -/

/-- A datagram as the socket delivers it. -/
structure Datagram where
  payload : List UInt8
  time : Span
  source : Endpoint
  deriving DecidableEq

def Delivery.datagram? : Delivery → Option Datagram
  | .datagram payload time source => some ⟨payload, time, source⟩
  | .fault _ => none

def Delivery.fault? : Delivery → Option IoFault
  | .datagram .. => none
  | .fault cause => some cause

/-- The datagrams of a script, in order. -/
def datagrams (script : List Delivery) : List Datagram := script.filterMap Delivery.datagram?

/-- The failures of a script, in order. -/
def faults (script : List Delivery) : List IoFault := script.filterMap Delivery.fault?

theorem datagrams_append (a b : List Delivery) :
    datagrams (a ++ b) = datagrams a ++ datagrams b := List.filterMap_append

theorem faults_append (a b : List Delivery) : faults (a ++ b) = faults a ++ faults b :=
  List.filterMap_append

/-! ### Datagrams, verdicts and payloads -/

/-- What a policy learns of datagrams that are numbered from `first` on.  Numbers are machine
words; a payload counts up to the limit. -/
def arrivals (limit : Nat) (first : UInt64) (ds : List Datagram) : List Arrival :=
  ds.mapIdx fun i d => ⟨first + .ofNat i, d.time, .ofNat (min d.payload.length limit)⟩

/-- The payloads that pass: those with the verdict to forward, cut at the limit. -/
def passed (limit : Nat) (ds : List Datagram) (verdicts : List Verdict) : List (List UInt8) :=
  (ds.zip verdicts).filterMap fun (d, verdict) =>
    match verdict with
    | .forward => some (d.payload.take limit)
    | .drop => none

theorem length_arrivals (limit : Nat) (first : UInt64) (ds : List Datagram) :
    (arrivals limit first ds).length = ds.length := List.length_mapIdx

theorem arrivals_append (limit : Nat) (first : UInt64) (as bs : List Datagram) :
    arrivals limit first (as ++ bs) =
      arrivals limit first as ++ arrivals limit (first + .ofNat as.length) bs := by
  unfold arrivals
  rw [List.mapIdx_append]
  congr 1
  refine List.mapIdx_eq_mapIdx_iff.mpr fun i hi => ?_
  rw [UInt64.ofNat_add, UInt64.add_comm (.ofNat i), UInt64.add_assoc]

theorem passed_append (limit : Nat) {as bs : List Datagram} {vs ws : List Verdict}
    (h : as.length = vs.length) :
    passed limit (as ++ bs) (vs ++ ws) = passed limit as vs ++ passed limit bs ws := by
  unfold passed
  rw [List.zip_append h, List.filterMap_append]

theorem length_passed (limit : Nat) {ds : List Datagram} {vs : List Verdict}
    (h : ds.length = vs.length) : (passed limit ds vs).length = vs.count .forward := by
  induction ds generalizing vs with
  | nil =>
    obtain rfl := List.eq_nil_of_length_eq_zero h.symm
    rfl
  | cons d ds ih =>
    rcases vs with _ | ⟨v, vs⟩
    · simp at h
    · have ih := ih (Nat.succ.inj h)
      unfold passed at ih ⊢
      cases v <;> simp [ih]

/-- What passes has no more bytes than what was received, up to the limit. -/
theorem sum_passed_le (limit : Nat) (ds : List Datagram) (vs : List Verdict) :
    ((passed limit ds vs).map List.length).sum ≤
      (ds.map fun d => min d.payload.length limit).sum := by
  induction ds generalizing vs with
  | nil => simp [passed]
  | cons d ds ih =>
    rcases vs with _ | ⟨v, vs⟩
    · simp [passed]
    · have ih := ih vs
      unfold passed at ih ⊢
      cases v <;> simp at ih ⊢ <;> omega

/-! ### Answers -/

def SendOutcome.isFault : SendOutcome → Bool
  | .fault _ => true
  | _ => false

/-- The bytes that an answer reports for a payload of the given length. -/
def SendOutcome.bytes (length : Nat) : SendOutcome → Nat
  | .whole => length
  | .counted bytes => bytes.toNat
  | .fault _ => 0

/-- Attempts in order, each with its answer; after the last answer everything is sent. -/
def answered : List SendOutcome → List Attempt → List (Attempt × SendOutcome)
  | _, [] => []
  | os, a :: as => (a, (Session.nextOutcome os).1) :: answered (os.drop 1) as

theorem answered_append (os : List SendOutcome) (as bs : List Attempt) :
    answered os (as ++ bs) = answered os as ++ answered (os.drop as.length) bs := by
  induction as generalizing os with
  | nil => rfl
  | cons a as ih => simp [answered, ih]

theorem map_fst_answered (os : List SendOutcome) (as : List Attempt) :
    (answered os as).map Prod.fst = as := by
  induction as generalizing os with
  | nil => rfl
  | cons a as ih => simp [answered, ih]

end LossRelay
