import LossRelay.Policy.Block
import LossRelay.Proofs.Relay.GivingUp
import LossRelay.Proofs.Relay.Likeness

/-!
# Stopping and starting again

A run that is stopped between two deliveries and a run that goes on with the rest do together what
one run over both scripts does.  The books survive the stop; the receive buffer and the count of
failures in a row do not.  The buffer is never read beyond what was just received, and the count
matters only if failures stand on both sides of the stop.
-/

namespace LossRelay

variable {π : Type} [LossPolicy π] {settings : RelaySettings}

theorem trailing_eq_zero {script : List Delivery}
    (h : ∀ d ∈ script.getLast?, d.isFault = false) : trailing script = 0 := by
  rcases List.eq_nil_or_concat' script with rfl | ⟨init, d, rfl⟩
  · rfl
  · cases d with
    | datagram payload time source => exact trailing_concat_datagram init payload time source
    | fault cause =>
      have hlast := h (.fault cause) (by simp)
      cases hlast

namespace Session

/-- **A run over two scripts in a row** goes on with the second one where the first has led. -/
theorem run_append {s : Session π} {a : List Delivery} (h : (s.run settings a).2.2 = .ok ())
    (b : List Delivery) :
    s.run settings (a ++ b) = (s.run settings a).1.run settings b := by
  induction a generalizing s with
  | nil => rfl
  | cons d rest ih =>
    cases d with
    | datagram payload time source => exact ih h
    | fault cause =>
      rw [run_fault] at h ⊢
      rw [List.cons_append, run_fault]
      split at h
      · -- the run over the first script would have given up here
        cases h
      · rename_i hlimit
        rw [if_neg hlimit, if_neg hlimit]
        exact ih h

/-- Sessions that are alike run alike if as many receives have just failed in both, and also if the
script does not start with a failure. -/
theorem Alike.run_of_seam {alike : Ledger π → Ledger π → Prop}
    {answering : List SendOutcome → List SendOutcome → Prop}
    (hL : Likeness settings alike answering) {earlier : List Attempt} {s t : Session π}
    (h : Alike settings alike answering earlier s t) {script : List Delivery}
    (hseam : s.streak = t.streak ∨ ∀ d ∈ script.head?, d.isFault = false) :
    Alike settings alike answering earlier (s.run settings script).1 (t.run settings script).1 ∧
      (s.run settings script).2 = (t.run settings script).2 := by
  rcases hseam with hstreak | hhead
  · exact h.run hL hstreak script
  · cases script with
    | nil => exact ⟨h, rfl⟩
    | cons d rest =>
      cases d with
      | datagram payload time source =>
        -- whatever the counts of failures were, they are both zero after this datagram
        refine (h.receive hL payload time source).run hL ?_ rest
        rw [receive_streak h.sized, receive_streak h.sized']
      | fault cause =>
        have hfirst := hhead (.fault cause) rfl
        cases hfirst

end Session

/-- **Stopping and starting again loses nothing.**  Take a relay in any state, a script without a
streak that ends a run, and a second script, such that the first does not end with a failed receive
or the second does not start with one.  A run over the first script reads all of it, and with a run
over the second one, on the answers that are left, it makes the same attempts as one run over both;
and it leaves the same relay with all its books, the same unread deliveries and unused answers, and
the same result. -/
theorem Relay.run_append_of_seam {r : Relay π} (h : r.settings.validate = .ok ())
    {a b : List Delivery} (hcalm : ¬ HasStreak r.settings.errorLimit.toNat a)
    (hseam : (∀ d ∈ a.getLast?, d.isFault = false) ∨ ∀ d ∈ b.head?, d.isFault = false)
    (outcomes : List SendOutcome) :
    let first := r.run a outcomes
    let second := first.relay.run b first.outcomes
    let whole := r.run (a ++ b) outcomes
    first.unread = [] ∧
    first.attempts ++ second.attempts = whole.attempts ∧
    second.relay = whole.relay ∧
    second.unread = whole.unread ∧
    second.outcomes = whole.outcomes ∧
    second.result = whole.result := by
  obtain ⟨hrun, hwatched⟩ := session_run_of_calm h hcalm outcomes
  generalize (r.session outcomes).handleAll r.settings a = t at hrun hwatched
  -- the session that starts again, beside the one that goes on
  let s : Session π := Relay.session ⟨r.settings, t.ledger⟩ t.outcomes
  have hsized : s.Sized r.settings := session_sized (r := ⟨r.settings, t.ledger⟩) h t.outcomes
  have hstart : Session.Alike r.settings Eq Eq t.attempts s t :=
    ⟨hsized, hwatched.sized, rfl, rfl, (List.append_nil _).symm⟩
  have hstreak : s.streak = t.streak ∨ ∀ d ∈ b.head?, d.isFault = false := by
    -- the new session has counted no failure, and the first script does not end with one
    refine hseam.imp_left fun hlast => ?_
    have hcount := hwatched.streak
    rw [trailing_eq_zero hlast] at hcount
    exact (UInt32.toNat_inj.mp hcount).symm
  obtain ⟨hend, hrest⟩ := hstart.run_of_seam Likeness.same hstreak
  have hcontinued : (r.session outcomes).run r.settings (a ++ b) = t.run r.settings b := by
    rw [Session.run_append (by rw [hrun]), hrun]
  have hagain : s.run r.settings b =
      ((s.run r.settings b).1, (t.run r.settings b).2.1, (t.run r.settings b).2.2) :=
    Prod.ext rfl hrest
  have hfirst := run_of_session hrun
  have hsecond : Relay.run ⟨r.settings, t.ledger⟩ b t.outcomes = _ := run_of_session hagain
  have hwhole := run_of_session hcontinued
  simp only [hfirst, hsecond, hwhole, hend.ledger]
  exact ⟨trivial, hend.attempts.symm, trivial, trivial, hend.outcomes, trivial⟩

/-- A relay that is stopped after a failed receive, with two more failures to come after the next
datagram: together with it the failures would end the run, but the datagram stands between. -/
theorem Relay.run_append_of_datagram_at_seam :
    let settings : RelaySettings := { RelaySettings.between default default with errorLimit := 2 }
    let policy : BlockPolicy := ⟨⟨500, 6, 0⟩, ⟨6, 0, none, some .zero, 7⟩⟩
    let relay : Relay BlockPolicy :=
      { settings, ledger := { Ledger.fresh policy (.bounded 2) with
          tally := { received := 7, forwarded := 7 }, pending := [.symbolDropped 0 1] } }
    let a : List Delivery := [.datagram [1, 2] (.ofMillis 10) default, .fault .timedOut]
    let b : List Delivery :=
      [.datagram [3] (.ofMillis 511) default, .fault .timedOut, .fault .timedOut, .datagram [4] .zero default]
    relay.settings.validate = .ok () ∧
    ¬ HasStreak relay.settings.errorLimit.toNat a ∧
    (∀ d ∈ b.head?, d.isFault = false) ∧
    ((relay.run a []).relay.run b (relay.run a []).outcomes).result =
      (relay.run (a ++ b) []).result := by
  intro settings policy relay a b
  have hvalid : relay.settings.validate = .ok () := rfl
  have hcalm : ¬ HasStreak relay.settings.errorLimit.toNat a := by decide
  have hseam : ∀ d ∈ b.head?, d.isFault = false := by decide
  exact ⟨hvalid, hcalm, hseam, (run_append_of_seam hvalid hcalm (.inr hseam) []).2.2.2.2.2⟩

end LossRelay
