import LossRelay.Proofs.Relay.Attempts

/-!
# A stricter rule

Two relays with the same settings work on the same deliveries, the one with a stricter index rule
than the other.  Where a run stops does not depend on the policy (`Service.stops_serveAll`), so both
read the same deliveries, and no drop shifts the number of a later datagram.  What the stricter rule
lets through is then a part of what the other one does, and all that does not depend on the verdicts
is the same (`Relay.serveAll_of_stricter`).
-/

namespace LossRelay

/-! ### The rule -/

/-- The rule `strict` ends its window no later, has all targets of the other rule, and exempts no
index that the other one does not. -/
structure IndexRule.Stricter (strict mild : IndexRule) : Prop where
  windowEnd : strict.windowEnd ≤ mild.windowEnd
  targets : ∀ i ∈ mild.targets, i ∈ strict.targets
  exempt : ∀ i ∈ strict.exempt, i ∈ mild.exempt

theorem IndexRule.Stricter.forward {strict mild : IndexRule} (h : strict.Stricter mild)
    {index : UInt64} (hpass : strict.verdict index = .forward) : mild.verdict index = .forward := by
  have hkept : strict.verdict index ≠ .drop := by
    rw [hpass]
    decide
  rw [Ne, verdict_eq_drop_iff, not_or] at hkept
  obtain ⟨htarget, hlate⟩ := hkept
  cases hv : mild.verdict index with
  | forward => rfl
  | drop =>
    rcases verdict_eq_drop_iff.mp hv with hmem | ⟨hwindow, hexempt⟩
    · exact absurd (h.targets index hmem) htarget
    · -- past the later end of the window the index is past the earlier one too
      have hpast : strict.windowEnd < index := UInt64.lt_of_le_of_lt h.windowEnd hwindow
      exact absurd ⟨hpast, fun hmem => hexempt (h.exempt index hmem)⟩ hlate

/-! ### Lists of verdicts -/

/-- Whatever passes under the first verdicts passes under the second ones. -/
def NoMore (vs ws : List Verdict) : Prop :=
  List.Forall₂ (fun v w => v = .forward → w = .forward) vs ws

theorem NoMore.passed_sublist {vs ws : List Verdict} (h : NoMore vs ws) (limit : Nat)
    (ds : List Datagram) : (passed limit ds vs).Sublist (passed limit ds ws) := by
  induction h generalizing ds with
  | nil => exact List.Sublist.refl _
  | @cons v w vs ws hvw _ ih =>
    cases ds with
    | nil => exact List.Sublist.refl _
    | cons d ds =>
      have hrest := ih ds
      unfold passed at hrest ⊢
      rw [List.zip_cons_cons, List.zip_cons_cons, List.filterMap_cons, List.filterMap_cons]
      cases v with
      | forward =>
        rw [hvw rfl]
        exact hrest.cons_cons _
      | drop =>
        cases w with
        | forward => exact hrest.cons _
        | drop => exact hrest

theorem NoMore.count_drop_le {vs ws : List Verdict} (h : NoMore vs ws) :
    ws.count .drop ≤ vs.count .drop := by
  induction h with
  | nil => exact Nat.le_refl _
  | @cons v w vs ws hvw _ ih =>
    cases v with
    | forward =>
      rw [hvw rfl]
      simpa using ih
    | drop =>
      have hhead : List.count Verdict.drop (w :: ws) ≤ List.count .drop ws + 1 := by
        cases w <;> simp
      rw [List.count_cons_self]
      omega

theorem IndexPolicy.verdicts_decideAll (rule : IndexRule) (as : List Arrival) :
    (LossPolicy.decideAll (IndexPolicy.mk rule) as).1.map (·.verdict) =
      as.map fun a => rule.verdict a.index := by
  rw [LossPolicy.decideAll_of_fixed fun _ => rfl, List.map_map]
  rfl

theorem IndexPolicy.count_drop_decideAll (rule : IndexRule) (as : List Arrival) :
    ((LossPolicy.decideAll (IndexPolicy.mk rule) as).1.map (·.verdict)).count .drop =
      as.countP fun a => rule.verdict a.index = .drop := by
  rw [verdicts_decideAll, List.count_eq_countP, List.countP_map]
  exact List.countP_congr fun a _ => by simp

/-- From its first packet on a relay drops as many datagrams as its rule says. -/
theorem Passage.dropped_of_fresh {settings : RelaySettings} {read : List Delivery}
    {answers : List (Attempt × SendOutcome)} {rule : IndexRule} {queue : TraceQueue}
    {m : Ledger IndexPolicy}
    (h : Passage settings read answers (.fresh (IndexPolicy.mk rule) queue) m) :
    m.tally.dropped =
      .ofNat ((arrivals settings.payloadLimit.toNat 0 (datagrams read)).countP
        fun a => rule.verdict a.index = .drop) := by
  refine (congrArg Tally.dropped h.tally).trans ((UInt64.zero_add _).trans ?_)
  exact congrArg UInt64.ofNat (IndexPolicy.count_drop_decideAll rule _)

theorem IndexRule.Stricter.noMore {strict mild : IndexRule} (h : strict.Stricter mild)
    (as : List Arrival) :
    NoMore ((LossPolicy.decideAll (IndexPolicy.mk strict) as).1.map (·.verdict))
      ((LossPolicy.decideAll (IndexPolicy.mk mild) as).1.map (·.verdict)) := by
  rw [IndexPolicy.verdicts_decideAll, IndexPolicy.verdicts_decideAll]
  unfold NoMore
  rw [List.forall₂_map_left_iff, List.forall₂_map_right_iff]
  exact List.forall₂_same.mpr fun _ _ => h.forward

/-! ### Where a run stops -/

section Stops

variable {π ρ : Type} [LossPolicy π] [LossPolicy ρ] {settings : RelaySettings}

/-- The loop stops where the failures in a row say, whatever the policy and its books. -/
theorem Session.run_stops {s : Session π} {t : Session ρ} (hs : s.Sized settings)
    (ht : t.Sized settings) (h : s.streak = t.streak) (script : List Delivery) :
    (s.run settings script).2 = (t.run settings script).2 := by
  induction script generalizing s t with
  | nil => rfl
  | cons d rest ih =>
    cases d with
    | datagram payload time source =>
      refine ih (receive_sized hs payload time source) (receive_sized ht payload time source) ?_
      rw [receive_streak hs, receive_streak ht]
    | fault cause =>
      have hstreak : (s.receiveFailed cause).streak = (t.receiveFailed cause).streak :=
        congrArg (· + 1) h
      rw [run_fault, run_fault, hstreak]
      by_cases hlimit : settings.errorLimit ≤ (t.receiveFailed cause).streak
      · rw [if_pos hlimit, if_pos hlimit]
      · rw [if_neg hlimit, if_neg hlimit]
        exact ih hs ht hstreak

/-- Where a run stops: its script, what of it is unread, and how the run ends. -/
def Episode.stop (e : Episode π) : List Delivery × List Delivery × Except RelayError Unit :=
  (e.script, e.run.unread, e.run.result.map fun _ => ())

omit [LossPolicy π] [LossPolicy ρ] in
theorem Episode.flatMap_read_of_stop {es : List (Episode π)} {fs : List (Episode ρ)}
    (h : es.map stop = fs.map stop) : es.flatMap read = fs.flatMap read := by
  let readOf (x : List Delivery × List Delivery × Except RelayError Unit) : List Delivery :=
    x.1.take (x.1.length - x.2.1.length)
  have hread : (es.map stop).flatMap readOf = (fs.map stop).flatMap readOf := by rw [h]
  rwa [List.flatMap_map, List.flatMap_map] at hread

theorem Relay.run_stop (r : Relay π) (script : List Delivery) (outcomes : List SendOutcome) :
    ((r.run script outcomes).unread, (r.run script outcomes).result.map fun _ => ()) =
      ((r.session outcomes).run r.settings script).2 := by
  unfold run
  dsimp only
  obtain ⟨s, unread, ending⟩ := (r.session outcomes).run r.settings script
  cases ending <;> rfl

/-- Two relays between their runs, with the same settings and the same unread deliveries. -/
structure Service.Beside (settings : RelaySettings) (v : Service π) (w : Service ρ) : Prop where
  left : v.relay.settings = settings
  right : w.relay.settings = settings
  unread : v.unread = w.unread

theorem Service.Beside.stop_episode (hvalid : settings.validate = .ok ()) {v : Service π}
    {w : Service ρ} (h : Beside settings v w) {t u : Turn} (ht : t.deliveries = u.deliveries) :
    (v.episode t).stop = (w.episode u).stop := by
  obtain ⟨hv, hw, hunread⟩ := h
  have hleft := Relay.session_sized (r := v.relay) (by rw [hv]; exact hvalid)
    (v.outcomes ++ t.outcomes)
  have hright := Relay.session_sized (r := w.relay) (by rw [hw]; exact hvalid)
    (w.outcomes ++ u.outcomes)
  rw [hv] at hleft
  rw [hw] at hright
  have hstop := Session.run_stops hleft hright rfl (v.unread ++ t.deliveries)
  have hrun := Relay.run_stop v.relay (v.unread ++ t.deliveries) (v.outcomes ++ t.outcomes)
  have hrun' := Relay.run_stop w.relay (w.unread ++ u.deliveries) (w.outcomes ++ u.outcomes)
  rw [hv, hstop] at hrun
  rw [hw, ← hunread, ← ht] at hrun'
  unfold Episode.stop Service.episode
  dsimp only
  rw [← hunread, ← ht]
  exact congrArg (Prod.mk _) (hrun.trans hrun'.symm)

/-- **Any number of runs stop at the same deliveries**, whatever the policies, the answers to the
sends and the readers of the traces. -/
theorem Service.Beside.stops_serveAll (hvalid : settings.validate = .ok ()) {v : Service π}
    {w : Service ρ} (h : Beside settings v w) {ts us : List Turn}
    (hts : ts.map (·.deliveries) = us.map (·.deliveries)) :
    (v.serveAll ts).1.map Episode.stop = (w.serveAll us).1.map Episode.stop ∧
      (v.serveAll ts).2.unread = (w.serveAll us).2.unread := by
  induction ts generalizing v w us with
  | nil =>
    obtain rfl := List.map_eq_nil_iff.mp hts.symm
    exact ⟨rfl, h.unread⟩
  | cons t ts ih =>
    obtain ⟨u, us, rfl, ht, hrest⟩ := List.map_eq_cons_iff.mp hts.symm
    have hstop := h.stop_episode hvalid ht.symm
    have hunread : (v.next t).unread = (w.next u).unread :=
      congrArg (fun x => x.2.1) hstop
    obtain ⟨hstops, hlast⟩ :=
      ih (v := v.next t) (w := w.next u) ⟨h.left, h.right, hunread⟩ hrest.symm
    refine ⟨?_, hlast⟩
    unfold serveAll
    rw [List.map_cons, List.map_cons, hstop, hstops]

end Stops

/-! ### Two histories -/

/-- **A stricter rule sends a part of what the other one sends.**  Let two relays with the same
settings, one with a stricter index rule than the other, run any number of times on the same
deliveries, whatever the answers to their sends, their trace queues and the readers of these.  All
attempts of the one are, in order, among those of the other.  Every run leaves the same deliveries
unread and ends in the same way, with the same error if it gives up; the datagrams received, their
bytes, those that were too long and the failed receives are the same.  The one drops exactly as many
of the datagrams as its rule says, and so does the other one, which are not more; the counters say
so as long as fewer than `2 ^ 64` datagrams are received. -/
theorem Relay.serveAll_of_stricter {settings : RelaySettings} {strict mild : IndexRule}
    (hrule : strict.Stricter mild) {queue queue' : TraceQueue} {relay relay' : Relay IndexPolicy}
    (h : onSocket settings ⟨strict⟩ queue = .ok relay)
    (h' : onSocket settings ⟨mild⟩ queue' = .ok relay') {turns turns' : List Turn}
    (hturns : turns.map (·.deliveries) = turns'.map (·.deliveries)) :
    let history := relay.start.serveAll turns
    let history' := relay'.start.serveAll turns'
    let stats := history.2.relay.stats
    let stats' := history'.2.relay.stats
    let judged := arrivals settings.payloadLimit.toNat 0
      (datagrams (history.1.flatMap Episode.read))
    let drops (rule : IndexRule) := judged.countP fun a => rule.verdict a.index = .drop
    (history.1.flatMap (·.run.attempts)).Sublist (history'.1.flatMap (·.run.attempts)) ∧
    history.1.map (·.run.unread) = history'.1.map (·.run.unread) ∧
    history.1.map (fun e => e.run.result.map fun _ => ()) =
      history'.1.map (fun e => e.run.result.map fun _ => ()) ∧
    history.2.unread = history'.2.unread ∧
    stats.received = stats'.received ∧ stats.bytesReceived = stats'.bytesReceived ∧
    stats.truncated = stats'.truncated ∧ stats.receiveFailures = stats'.receiveFailures ∧
    drops mild ≤ drops strict ∧
    stats.dropped = .ofNat (drops strict) ∧ stats'.dropped = .ofNat (drops mild) ∧
    (judged.length < 2 ^ 64 → stats'.dropped ≤ stats.dropped) := by
  obtain ⟨hs, rfl⟩ := eq_of_onSocket h
  obtain ⟨-, rfl⟩ := eq_of_onSocket h'
  intro history history' stats stats' judged drops
  have hbeside : Service.Beside settings
      (Relay.start ⟨settings, .fresh (IndexPolicy.mk strict) queue⟩)
      (Relay.start ⟨settings, .fresh (IndexPolicy.mk mild) queue'⟩) := ⟨rfl, rfl, rfl⟩
  obtain ⟨hstops, hunread⟩ := hbeside.stops_serveAll hs hturns
  have hread : history.1.flatMap Episode.read = history'.1.flatMap Episode.read :=
    Episode.flatMap_read_of_stop hstops
  obtain ⟨-, hpassage⟩ := Service.serveAll_passage
    (v := Relay.start ⟨settings, .fresh (IndexPolicy.mk strict) queue⟩) hs turns
  obtain ⟨-, hpassage'⟩ := Service.serveAll_passage
    (v := Relay.start ⟨settings, .fresh (IndexPolicy.mk mild) queue'⟩) hs turns'
  -- both relays have read the same datagrams, numbered in the same way
  change Passage settings (history'.1.flatMap Episode.read) _ _ _ at hpassage'
  rw [← hread] at hpassage'
  have hno : NoMore _ _ := hrule.noMore judged
  have hcount : drops mild ≤ drops strict := by
    have hle := hno.count_drop_le
    rwa [IndexPolicy.count_drop_decideAll, IndexPolicy.count_drop_decideAll] at hle
  have htally := hpassage.tally
  have htally' := hpassage'.tally
  have hdropped : stats.dropped = .ofNat (drops strict) := hpassage.dropped_of_fresh
  have hdropped' : stats'.dropped = .ofNat (drops mild) := hpassage'.dropped_of_fresh
  refine ⟨?_, ?_, ?_, hunread, ?_, ?_, ?_, ?_, hcount, hdropped, hdropped', ?_⟩
  · rw [flatMap_attempts, flatMap_attempts, hpassage.attempts, hpassage'.attempts]
    exact (hno.passed_sublist _ _).map _
  · have hmap := congrArg (List.map fun x => x.2.1) hstops
    rwa [List.map_map, List.map_map] at hmap
  · have hmap := congrArg (List.map fun x => x.2.2) hstops
    rwa [List.map_map, List.map_map] at hmap
  · exact (congrArg Tally.received htally).trans (congrArg Tally.received htally').symm
  · exact (congrArg Tally.bytesReceived htally).trans (congrArg Tally.bytesReceived htally').symm
  · exact (congrArg Tally.truncated htally).trans (congrArg Tally.truncated htally').symm
  · exact (congrArg Tally.receiveFailures htally).trans
      (congrArg Tally.receiveFailures htally').symm
  · intro hfits
    have hmost : drops strict ≤ judged.length := List.countP_le_length
    have hfits' : drops strict < 2 ^ 64 := Nat.lt_of_le_of_lt hmost hfits
    rw [hdropped, hdropped', UInt64.le_iff_toNat_le, UInt64.toNat_ofNat_of_lt' hfits',
      UInt64.toNat_ofNat_of_lt' (Nat.lt_of_le_of_lt hcount hfits')]
    exact hcount

/-- The stricter rule has a target that both rules exempt, and an earlier end of its window: of five
datagrams in two runs, between which there is a failed receive, it drops three and the other rule
one. -/
theorem Relay.serveAll_of_stricter_of_two_runs :
    let settings : RelaySettings := { RelaySettings.between default default with payloadLimit := 4 }
    let strict : IndexRule := ⟨1, .ofList [0], .ofList [0, 3]⟩
    let mild : IndexRule := ⟨2, .empty, .ofList [0, 3]⟩
    let turns : List Turn :=
      [{ deliveries := [.datagram [1] .zero default, .datagram [2] .zero default, .fault .timedOut] },
        { deliveries := [.datagram [3] .zero default, .datagram [4] .zero default, .datagram [5] .zero default] }]
    ∃ relay relay', onSocket settings (IndexPolicy.mk strict) .disabled = .ok relay ∧
      onSocket settings (IndexPolicy.mk mild) .disabled = .ok relay' ∧
      ((relay.start.serveAll turns).1.flatMap (·.run.attempts)).Sublist
        ((relay'.start.serveAll turns).1.flatMap (·.run.attempts)) ∧
      (relay.start.serveAll turns).2.relay.stats.dropped = 3 ∧
      (relay'.start.serveAll turns).2.relay.stats.dropped = 1 := by
  intro settings strict mild turns
  have hrule : strict.Stricter mild :=
    ⟨by decide, fun _ hi => absurd hi (IndexSet.not_mem_empty _), fun _ hi => hi⟩
  have h : onSocket settings (IndexPolicy.mk strict) .disabled =
      .ok ⟨settings, .fresh ⟨strict⟩ .disabled⟩ := rfl
  have h' : onSocket settings (IndexPolicy.mk mild) .disabled =
      .ok ⟨settings, .fresh ⟨mild⟩ .disabled⟩ := rfl
  have hturns : turns.map (·.deliveries) = turns.map (·.deliveries) := rfl
  obtain ⟨hsublist, -, -, -, -, -, -, -, -, hdropped, hdropped', -⟩ :=
    serveAll_of_stricter hrule h h' hturns
  refine ⟨_, _, h, h', hsublist, ?_, ?_⟩
  · rw [hdropped]
    decide
  · rw [hdropped']
    decide

end LossRelay
