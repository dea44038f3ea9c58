import LossRelay.Policy.Choice
import LossRelay.Proofs.Policy.TraceTruth
import LossRelay.Proofs.Relay.Moments

/-!
# Exact counters

The counters of a relay are machine words and could wrap.  They do not while a relay reads no more
than `2 ^ 47` deliveries: a datagram has at most 65535 bytes that count, reports three events at
most, and moves every other counter by one at most.  So at every moment of every run each counter
is the number that it stands for (`no_counter_wraps`).
-/

namespace LossRelay

/-! ### What a part of a script can count to -/

theorem length_datagrams_add_faults (script : List Delivery) :
    (datagrams script).length + (faults script).length = script.length := by
  induction script with
  | nil => rfl
  | cons d script ih =>
    have hd : datagrams (d :: script) = datagrams [d] ++ datagrams script :=
      datagrams_append [d] script
    have hf : faults (d :: script) = faults [d] ++ faults script := faults_append [d] script
    rw [hd, hf, List.length_append, List.length_append, List.length_cons]
    cases d with
    | datagram payload time source =>
      have hone : (datagrams [Delivery.datagram payload time source]).length = 1 := rfl
      have hnone : (faults [Delivery.datagram payload time source]).length = 0 := rfl
      omega
    | fault cause =>
      have hnone : (datagrams [Delivery.fault cause]).length = 0 := rfl
      have hone : (faults [Delivery.fault cause]).length = 1 := rfl
      omega

theorem sum_lengths_le (limit : Nat) (ds : List Datagram) :
    (ds.map fun d => min d.payload.length limit).sum ≤ ds.length * limit := by
  have h := List.sum_le_card_nsmul (ds.map fun d => min d.payload.length limit) limit fun n hn => by
    obtain ⟨d, -, rfl⟩ := List.mem_map.mp hn
    exact Nat.min_le_right ..
  rw [List.length_map] at h
  exact h

/-- **What `2 ^ 47` deliveries count to fits the counters**, if the socket never reports more bytes
than it was given. -/
theorem Account.fits_of_le {limit : Nat} (hlimit : limit ≤ 65535) {ds : List Datagram}
    {vs : List Verdict} {answers : List (Attempt × SendOutcome)} {failures : Nat}
    {remote : Endpoint} (hitems : ds.length + failures ≤ 2 ^ 47) (hlen : ds.length = vs.length)
    (hsent : answers.map Prod.fst = (passed limit ds vs).map (Attempt.mk remote))
    (hhonest : ∀ a ∈ answers, a.2.bytes a.1.payload.length ≤ a.1.payload.length) :
    (Account.of limit ds vs answers failures).Fits := by
  have hbytes : (Account.of limit ds vs answers failures).bytesReceived ≤ 2 ^ 47 * 65535 :=
    (sum_lengths_le limit ds).trans (Nat.mul_le_mul (by omega) hlimit)
  have hforwarded := Account.bytesForwarded_le failures hsent hhonest
  have hconserved := Account.received_eq failures hlen hsent
  have hreceived : (Account.of limit ds vs answers failures).received = ds.length := rfl
  have hfailures : (Account.of limit ds vs answers failures).receiveFailures = failures := rfl
  have htruncated : (Account.of limit ds vs answers failures).truncated ≤ ds.length :=
    List.countP_le_length
  constructor <;> omega

/-! ### Three events for a datagram -/

theorem BlockPolicy.length_events_le (p : BlockPolicy) (a : Arrival) :
    (p.decide a).events.length ≤ 3 := by
  have hdrop (s : BlockState) :
      (if isTarget p.rule s then [TraceEvent.symbolDropped s.symbol s.block] else []).length
        ≤ 1 := by
    split
    · exact Nat.le_refl 1
    · exact Nat.zero_le 1
  rcases h : p.state.observe a.time p.rule.silence with ⟨t, _ | b⟩
  · have hdecide : p.decide a = close p.rule t a.time [] [] := decide_of_no_boundary h
    have hle := hdrop t
    rw [hdecide]
    unfold close
    rw [List.length_append, List.length_nil]
    omega
  · have hdecide : p.decide a = close p.rule (learn p.rule t b).1 a.time (learn p.rule t b).2.1
        (learn p.rule t b).2.2 := decide_of_boundary h
    have hlearn : (learn p.rule t b).2.1.length ≤ 2 := by
      unfold learn
      dsimp only
      split
      · exact Nat.le_succ 1
      · exact Nat.le_refl 2
    have hle := hdrop (learn p.rule t b).1
    rw [hdecide]
    unfold close
    rw [List.length_append]
    omega

namespace AnyPolicy

theorem length_events_le (p : AnyPolicy) (a : Arrival) :
    (LossPolicy.decide p a).events.length ≤ 3 := by
  cases p with
  | index p => exact Nat.le_add_left 1 2
  | block p => exact BlockPolicy.length_events_le p a

theorem length_events_decideAll_le (p : AnyPolicy) (as : List Arrival) :
    ((LossPolicy.decideAll p as).1.flatMap (·.events)).length ≤ 3 * as.length := by
  induction as generalizing p with
  | nil => exact Nat.zero_le 0
  | cons a as ih =>
    have hfirst := length_events_le p a
    have hrest := ih (LossPolicy.decide p a).next
    rw [LossPolicy.decideAll_cons, List.flatMap_cons, List.length_append, List.length_cons]
    omega

/-! ### The counters of the block policy -/

theorem decideAll_wrap {π : Type} [LossPolicy π] (wrap : π → AnyPolicy)
    (h : ∀ p a, LossPolicy.decide (wrap p) a = lift wrap (LossPolicy.decide p a)) (p : π)
    (as : List Arrival) :
    LossPolicy.decideAll (wrap p) as =
      ((LossPolicy.decideAll p as).1.map (lift wrap), wrap (LossPolicy.decideAll p as).2) := by
  induction as generalizing p with
  | nil => rfl
  | cons a as ih =>
    rw [LossPolicy.decideAll_cons, LossPolicy.decideAll_cons, h, List.map_cons]
    have hnext : (lift wrap (LossPolicy.decide p a)).next = wrap (LossPolicy.decide p a).next := rfl
    rw [hnext, ih]

end AnyPolicy

/-- **A position and a block number stay below the number of packets.** -/
theorem BlockPolicy.symbol_add_block_lt {rule : BlockRule} {as : List Arrival}
    (hlen : as.length < 2 ^ 64) (hne : as ≠ []) :
    (stateAfter rule as).symbol.toNat + (stateAfter rule as).block.toNat < as.length := by
  rw [toNat_symbol_stateAfter hlen, toNat_block_stateAfter hlen]
  have hpos : 0 < as.length := List.length_pos_iff.mpr hne
  have hflat : (rule.blocks as).flatten.length = as.length :=
    congrArg List.length (BlockRule.flatten_blocks as)
  rcases List.eq_nil_or_concat' (rule.blocks as) with hbs | ⟨bs, b, hbs⟩
  · rw [hbs] at hflat
    exact absurd hflat (by simpa using Nat.ne_of_lt hpos)
  · -- the blocks before the last have a packet each
    have hnonempty : ∀ c ∈ bs ++ [b], c ≠ [] := fun c hc =>
      List.ne_nil_of_mem_splitBy (by rw [← BlockRule.blocks, hbs]; exact hc)
    have hbefore : bs.length ≤ bs.flatten.length :=
      length_le_length_flatten fun c hc => hnonempty c (List.mem_append_left _ hc)
    have hlast : 0 < b.length := List.length_pos_iff.mpr (hnonempty b (by simp))
    rw [hbs, List.flatten_append, List.flatten_singleton, List.length_append] at hflat
    rw [hbs, List.getLastD_concat, List.length_append, List.length_singleton]
    omega

namespace AnyPolicy

variable {choice : PolicySettings} {as : List Arrival} {state : BlockState}

theorem blockState_decideAll (hlen : as.length < 2 ^ 64)
    (h : (LossPolicy.decideAll choice.policy as).2.blockState? = some state) :
    state = BlockPolicy.stateAfter choice.blockRule as := by
  unfold PolicySettings.policy at h
  cases hkind : choice.kind with
  | byIndex =>
    rw [hkind, decideAll_wrap .index fun _ _ => rfl] at h
    cases h
  | byBlock =>
    rw [hkind, decideAll_wrap .block fun _ _ => rfl,
      (BlockPolicy.decideAll_stateAfter choice.blockRule as hlen).1] at h
    exact (Option.some.inj h).symm

/-- The block policy has counted every packet, the blocks but the first, and the packets but the
first of the last block. -/
theorem blockState_counts (hlen : as.length < 2 ^ 64)
    (h : (LossPolicy.decideAll choice.policy as).2.blockState? = some state) :
    state.packets = .ofNat as.length ∧ state.packets.toNat = as.length ∧
    state.block.toNat = (choice.blockRule.blocks as).length - 1 ∧
    state.symbol.toNat = ((choice.blockRule.blocks as).getLastD []).length - 1 ∧
    (as ≠ [] → state.symbol.toNat + state.block.toNat < state.packets.toNat) := by
  obtain rfl := blockState_decideAll hlen h
  have hpackets : (BlockPolicy.stateAfter choice.blockRule as).packets.toNat = as.length :=
    UInt64.toNat_ofNat_of_lt' hlen
  refine ⟨rfl, hpackets, BlockPolicy.toNat_block_stateAfter hlen,
    BlockPolicy.toNat_symbol_stateAfter hlen, fun hne => ?_⟩
  rw [hpackets]
  exact BlockPolicy.symbol_add_block_lt hlen hne

end AnyPolicy

/-! ### Every counter at every moment -/

/-- **No counter wraps.**  Take a relay with either policy and any trace queue whose own counter is
far from its end, any history of runs, and any moment of the next run, which has read `part` of what
it will read.  If no more than `2 ^ 47` deliveries have been read in all and the socket never
reported more bytes than it was given, then the tally is the exact account of all deliveries read,
the counter of the trace queue has grown by the number of events it lost, and the counter of
failures in a row is the number of failures at the end of `part` and not above the limit.  The block
policy has counted every datagram, the blocks but the first and the packets but the first of the
last block, and once a datagram has arrived its position and block number add up to less than the
number of packets. -/
theorem Relay.no_counter_wraps {settings : RelaySettings} {choice : PolicySettings}
    {queue : TraceQueue} {relay : Relay AnyPolicy}
    (h : onSocket settings choice.policy queue = .ok relay)
    (hqueue : queue.discarded.toNat + 3 * 2 ^ 47 < 2 ^ 64)
    (turns : List Turn) (turn : Turn) {part : List Delivery}
    (hpart : part <+: ((relay.start.serveAll turns).2.episode turn).read)
    (hitems : (relay.start.readUntil turns part).length ≤ 2 ^ 47)
    (hhonest : ∀ a ∈ relay.start.answersUntil turns turn part,
      a.2.bytes a.1.payload.length ≤ a.1.payload.length) :
    let last := (relay.start.serveAll turns).2
    let moment := last.during turn part
    let read := relay.start.readUntil turns part
    let limit := settings.payloadLimit.toNat
    let seen := arrivals limit 0 (datagrams read)
    let verdicts := (LossPolicy.decideAll choice.policy seen).1.map (·.verdict)
    let blocks := choice.blockRule.blocks seen
    (part = (last.episode turn).read → moment.ledger = (last.episode turn).run.relay.ledger) ∧
    moment.ledger.stats.account = Account.of limit (datagrams read) verdicts
      (relay.start.answersUntil turns turn part) (faults read).length ∧
    moment.ledger.stats.traceDiscarded.toNat =
      queue.discarded.toNat + (queue.losses (relay.start.queueMovesUntil turns part)).length ∧
    moment.streak.toNat = trailing part ∧ trailing part ≤ settings.errorLimit.toNat ∧
    ∀ state, moment.ledger.policy.blockState? = some state →
      state.packets = moment.ledger.tally.received ∧
      state.packets.toNat = (datagrams read).length ∧
      state.block.toNat = blocks.length - 1 ∧
      state.symbol.toNat = (blocks.getLastD []).length - 1 ∧
      (datagrams read ≠ [] → state.symbol.toNat + state.block.toNat < state.packets.toNat) := by
  obtain ⟨hs, rfl⟩ := eq_of_onSocket h
  intro last moment read limit seen verdicts blocks
  have hset : last.relay.settings = settings := Service.settings_serveAll _ turns
  have hlast : last.relay.settings.validate = .ok () := hset ▸ hs
  have hpassage :=
    Service.during_passage (v := Relay.start ⟨settings, .fresh choice.policy queue⟩) hs turns turn
      part
  -- sizes
  have hcount : (datagrams read).length + (faults read).length ≤ 2 ^ 47 :=
    (length_datagrams_add_faults read).trans_le hitems
  have hseen : seen.length = (datagrams read).length := length_arrivals ..
  have hlen : (datagrams read).length = verdicts.length :=
    (Ledger.length_verdicts settings (.fresh choice.policy queue) read).symm
  have hfits := Account.fits_of_le (RelaySettings.limits_of_validate hs).1 hcount hlen
    hpassage.attempts hhonest
  refine ⟨fun hall => ?_, ?_, ?_, ?_, ?_, fun state hstate => ?_⟩
  · rw [← (Service.during_read last turn).1, ← hall]
  · have htally : moment.ledger.tally = (Account.of limit (datagrams read) verdicts
        (Service.answersUntil _ turns turn part) (faults read).length).addTo .zero := hpassage.tally
    have hstats : moment.ledger.stats.account = moment.ledger.tally.account := rfl
    rw [hstats, htally]
    exact Account.account_addTo_zero hfits
  · have hevents : (Ledger.events settings (.fresh choice.policy queue) read).length ≤
        3 * seen.length := AnyPolicy.length_events_decideAll_le choice.policy seen
    have hroom : queue.discarded.toNat +
        (Ledger.events settings (.fresh choice.policy queue) read).length < 2 ^ 64 := by omega
    exact Service.toNat_discarded_during
      (v := Relay.start ⟨settings, .fresh choice.policy queue⟩) hs rfl turns turn part hroom
  · exact (Service.streak_during hlast turn hpart).1
  · rw [← hset]
    exact (Service.streak_during hlast turn hpart).2
  · have hpolicy : moment.ledger.policy = (LossPolicy.decideAll choice.policy seen).2 :=
      hpassage.policy
    have hreceived : moment.ledger.tally.received = 0 + .ofNat (datagrams read).length :=
      hpassage.received
    rw [hpolicy] at hstate
    obtain ⟨hpackets, hcounted, hblock, hsymbol, hbelow⟩ :=
      AnyPolicy.blockState_counts (by omega) hstate
    rw [hseen] at hpackets hcounted
    refine ⟨?_, hcounted, hblock, hsymbol, fun hne => hbelow fun hnil => hne ?_⟩
    · rw [hreceived, UInt64.zero_add, hpackets]
    · rw [hnil, List.length_nil] at hseen
      exact List.eq_nil_of_length_eq_zero hseen.symm

/-- A run that is over and three deliveries of the next: one send has failed and one was short, a
datagram was cut and one dropped, and the queue for one event has lost two. -/
theorem Relay.no_counter_wraps_after_four_datagrams :
    let settings : RelaySettings :=
      { RelaySettings.between default default with payloadLimit := 4, errorLimit := 2 }
    let choice : PolicySettings :=
      { PolicySettings.reference with kind := .byBlock, blockRule := ⟨500, 1, 1⟩ }
    let turns : List Turn :=
      [{ deliveries := [.datagram [1, 2, 3] .zero default, .datagram [9, 9, 9, 9, 9] (.ofMillis 10) default,
          .fault .timedOut], outcomes := [.fault .connectionRefused, .counted 2] }]
    let part : List Delivery :=
      [.datagram [4] (.ofMillis 511) default, .datagram [5] (.ofMillis 500) default, .fault .timedOut]
    let turn : Turn := { deliveries := part ++ [.datagram [6] (.ofMillis 510) default] }
    ∃ relay, onSocket settings choice.policy (.bounded 1) = .ok relay ∧
      part <+: ((relay.start.serveAll turns).2.episode turn).read ∧
      (relay.start.readUntil turns part).length ≤ 2 ^ 47 ∧
      (∀ a ∈ relay.start.answersUntil turns turn part,
        a.2.bytes a.1.payload.length ≤ a.1.payload.length) ∧
      let moment := (relay.start.serveAll turns).2.during turn part
      moment.ledger.stats.account =
        { received := 4, bytesReceived := 9, truncated := 1, dropped := 1, forwarded := 2,
          bytesForwarded := 3, sendFailures := 1, receiveFailures := 2 } ∧
      moment.ledger.stats.traceDiscarded.toNat = 2 ∧ moment.streak.toNat = 1 := by
  intro settings choice turns part turn
  have h : onSocket settings choice.policy (.bounded 1) =
      .ok ⟨settings, .fresh choice.policy (.bounded 1)⟩ := rfl
  have hpart : part <+: ((Service.serveAll (Relay.start ⟨settings, .fresh choice.policy
      (.bounded 1)⟩) turns).2.episode turn).read := by decide
  have hitems : (Service.readUntil (Relay.start ⟨settings, .fresh choice.policy (.bounded 1)⟩)
      turns part).length ≤ 2 ^ 47 := by decide
  have hhonest : ∀ a ∈ Service.answersUntil (Relay.start ⟨settings, .fresh choice.policy
      (.bounded 1)⟩) turns turn part,
      a.2.bytes a.1.payload.length ≤ a.1.payload.length := by decide
  obtain ⟨-, haccount, hlost, hstreak, -, -⟩ :=
    no_counter_wraps h (by decide) turns turn hpart hitems hhonest
  refine ⟨_, h, hpart, hitems, hhonest, ?_, ?_, ?_⟩
  · rw [haccount]
    decide
  · rw [hlost]
    decide
  · rw [hstreak]
    decide

end LossRelay
