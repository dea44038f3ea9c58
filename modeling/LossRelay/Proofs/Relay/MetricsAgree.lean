import LossRelay.Policy.Choice
import LossRelay.Proofs.Policy.BlockRun
import LossRelay.Proofs.Relay.Entries

/-!
# Metrics and tally agree

A relay keeps two sets of counters: the tally in its books, and the metrics that are published.
`Metrics.ofTally` reads the metrics off the tally and the policy, and no entry in the books makes
the two sides differ (`Ledger.InStep.enter`), as long as no counter is raised so often that it
comes back to zero.
-/

namespace LossRelay

/-! ### The metrics of a tally -/

namespace Metrics

/-- A metric that is touched whenever `count` goes up. -/
def shown (count amount : UInt64) : Option UInt64 := if count = 0 then none else some amount

/-- **The metrics that a tally and a policy call for.** -/
def ofTally (t : Tally) (policy : AnyPolicy) : Metrics where
  datagramsReceived := shown t.received t.received
  bytesReceived := shown t.received t.bytesReceived
  datagramsForwarded := shown t.forwarded t.forwarded
  bytesForwarded := shown t.forwarded t.bytesForwarded
  datagramsDropped := if t.dropped = 0 then [] else [(LossPolicy.name policy, t.dropped)]
  receiveErrors := shown t.receiveFailures t.receiveFailures
  sendErrors := shown t.sendFailures t.sendFailures
  blocksFinished := policy.blockState?.bind fun s => shown s.block s.block
  blockSize := policy.blockState?.bind (·.learned)

theorem toNat_succ {n : UInt64} (h : n.toNat + 1 < 2 ^ 64) : (n + 1).toNat = n.toNat + 1 := by
  rw [UInt64.toNat_add]
  exact Nat.mod_eq_of_lt h

theorem succ_ne_zero {n : UInt64} (h : n.toNat + 1 < 2 ^ 64) : n + 1 ≠ 0 := by
  intro h0
  have hn := toNat_succ h
  rw [h0] at hn
  exact Nat.succ_ne_zero _ hn.symm

theorem raise_shown {count amount : UInt64} (more : UInt64) (hroom : count.toNat + 1 < 2 ^ 64)
    (hzero : count = 0 → amount = 0) :
    raise (shown count amount) more = shown (count + 1) (amount + more) := by
  unfold raise shown
  rw [if_neg (succ_ne_zero hroom)]
  by_cases h : count = 0
  · rw [if_pos h, hzero h]
    rfl
  · rw [if_neg h]
    rfl

/-! ### One measurement -/

variable {t : Tally} {policy : AnyPolicy}

theorem record_received (size : UInt64) (hroom : t.received.toNat + 1 < 2 ^ 64)
    (hzero : t.received = 0 → t.bytesReceived = 0) :
    (ofTally t policy).record (.received size) =
      ofTally { t with received := t.received + 1, bytesReceived := t.bytesReceived + size }
        policy := by
  simp only [record, ofTally, raise_shown _ hroom id, raise_shown _ hroom hzero]

theorem record_forwarded (bytes : UInt64) (hroom : t.forwarded.toNat + 1 < 2 ^ 64)
    (hzero : t.forwarded = 0 → t.bytesForwarded = 0) :
    (ofTally t policy).record (.forwarded bytes) =
      ofTally { t with forwarded := t.forwarded + 1, bytesForwarded := t.bytesForwarded + bytes }
        policy := by
  simp only [record, ofTally, raise_shown _ hroom id, raise_shown _ hroom hzero]

theorem record_failed_receive (hroom : t.receiveFailures.toNat + 1 < 2 ^ 64) :
    (ofTally t policy).record (.failed .receive) =
      ofTally { t with receiveFailures := t.receiveFailures + 1 } policy := by
  simp only [record, ofTally, raise_shown _ hroom id]

theorem record_failed_send (hroom : t.sendFailures.toNat + 1 < 2 ^ 64) :
    (ofTally t policy).record (.failed .send) =
      ofTally { t with sendFailures := t.sendFailures + 1 } policy := by
  simp only [record, ofTally, raise_shown _ hroom id]

/-- Drops are counted under the name of the policy that runs, and under no other. -/
theorem record_dropped (hroom : t.dropped.toNat + 1 < 2 ^ 64) :
    (ofTally t policy).record (.dropped (LossPolicy.name policy)) =
      ofTally { t with dropped := t.dropped + 1 } policy := by
  simp only [record, ofTally, if_neg (succ_ne_zero hroom)]
  by_cases h : t.dropped = 0
  · simp [h, raiseNamed]
  · simp [h, raiseNamed]

/-! ### Publication -/

/-- What a tally and a policy have to publish: name, label and value of every metric. -/
def published (t : Tally) (policy : AnyPolicy) : List Sample :=
  (if t.received = 0 then [] else
    [⟨"fec_sieve_datagrams_received_total", none, .count t.received⟩,
      ⟨"fec_sieve_bytes_received_total", none, .count t.bytesReceived⟩]) ++
  (if t.forwarded = 0 then [] else
    [⟨"fec_sieve_datagrams_forwarded_total", none, .count t.forwarded⟩,
      ⟨"fec_sieve_bytes_forwarded_total", none, .count t.bytesForwarded⟩]) ++
  (if t.dropped = 0 then [] else
    [⟨"fec_sieve_datagrams_dropped_total", some ("policy", LossPolicy.name policy),
      .count t.dropped⟩]) ++
  (if t.receiveFailures = 0 then [] else
    [⟨"fec_sieve_io_errors_total", some ("op", "recv"), .count t.receiveFailures⟩]) ++
  (if t.sendFailures = 0 then [] else
    [⟨"fec_sieve_io_errors_total", some ("op", "send"), .count t.sendFailures⟩]) ++
  match policy with
  | .index _ => []
  | .block p =>
    (if p.state.block = 0 then [] else
      [⟨"fec_sieve_blocks_detected_total", none, .count p.state.block⟩]) ++
    match p.state.learned with
    | none => []
    | some n => [⟨"fec_sieve_symbols_per_block", none, .level n.toFloat⟩]

theorem countSample_shown (name : String) (label : Option (String × String))
    (count amount : UInt64) : countSample name label (shown count amount) =
      if count = 0 then [] else [⟨name, label, .count amount⟩] := by
  unfold shown
  split <;> rfl

theorem countSample_none (name : String) (label : Option (String × String)) :
    countSample name label none = [] := rfl

theorem countSample_pair (name name' : String) (count amount amount' : UInt64) :
    countSample name none (shown count amount) ++ countSample name' none (shown count amount') =
      if count = 0 then [] else [⟨name, none, .count amount⟩, ⟨name', none, .count amount'⟩] := by
  rw [countSample_shown, countSample_shown]
  split <;> rfl

/-- **The samples of the metrics of a tally** are what it has to publish. -/
theorem samples_ofTally (t : Tally) (policy : AnyPolicy) :
    (ofTally t policy).samples = published t policy := by
  unfold samples published ofTally
  -- the counters that share a count are published together
  rw [List.append_assoc (countSample _ _ _ ++ countSample _ _ _), countSample_pair, countSample_pair]
  cases policy with
  | index p =>
    simp only [countSample_shown, apply_ite (List.map _), List.map_nil, List.map_cons,
      AnyPolicy.blockState?, Option.bind_none, countSample_none, List.append_nil, SocketOp.label]
  | block p =>
    simp only [countSample_shown, apply_ite (List.map _), List.map_nil, List.map_cons,
      AnyPolicy.blockState?, Option.bind_some, SocketOp.label, List.append_assoc]
    cases p.state.learned <;> rfl

end Metrics

/-! ### The measurements of a decision -/

/-- **A decision measures what it does to its state**: the block that it ends, and the size that it
learns. -/
theorem BlockPolicy.recordAll_decide (rule : BlockRule) (s : BlockState) (a : Arrival) (m : Metrics)
    (hblocks : m.blocksFinished = Metrics.shown s.block s.block) (hsize : m.blockSize = s.learned)
    (hroom : s.block.toNat + 1 < 2 ^ 64) :
    let d := decide ⟨rule, s⟩ a
    m.recordAll d.measurements =
        { m with
          blocksFinished := Metrics.shown d.next.state.block d.next.state.block
          blockSize := d.next.state.learned } ∧
      d.next.state.block.toNat ≤ s.block.toNat + 1 := by
  intro d
  have hblock := observe_block s a.time rule.silence
  have hlearned := observe_learned s a.time rule.silence
  rcases h : s.observe a.time rule.silence with ⟨t, _ | b⟩ <;>
    rw [h] at hblock hlearned <;> dsimp only at hblock hlearned
  · have hd : d = close rule t a.time [] [] := decide_of_no_boundary h
    rw [hd]
    simp [close, Metrics.recordAll, hblock, hlearned, ← hblocks, ← hsize]
  · have hd : d = close rule (learn rule t b).1 a.time (learn rule t b).2.1 (learn rule t b).2.2 :=
      decide_of_boundary h
    have hraise : Metrics.raise (Metrics.shown s.block s.block) 1 =
        Metrics.shown (s.block + 1) (s.block + 1) := Metrics.raise_shown 1 hroom id
    rw [hd]
    cases hl : s.learned with
    | some n =>
      have hlearn : learn rule t b =
          (t, [.blockFinished b.packetsBefore b.lastSymbol b.gap], [.blockFinished]) := by
        simp [learn, hlearned, hl]
      rw [hlearn]
      simp [close, Metrics.recordAll, Metrics.record, hblocks, hblock, hraise, hlearned, hsize,
        Metrics.toNat_succ hroom]
    | none =>
      have hlearn : (learn rule t b).1 = { t with learned := some b.lastSymbol } ∧
          (learn rule t b).2.2 = [.blockFinished, .blockSize b.lastSymbol] := by
        simp [learn, hlearned, hl]
      rw [hlearn.1, hlearn.2]
      simp [close, Metrics.recordAll, Metrics.record, hblocks, hblock, hraise,
        Metrics.toNat_succ hroom]

namespace AnyPolicy

/-- The blocks that a policy has seen end; an index policy sees none. -/
def blocks (p : AnyPolicy) : Nat := (p.blockState?.map fun s => s.block.toNat).getD 0

/-- The measurements of a decision of either policy keep the metrics in step with it. -/
theorem recordAll_decide (t : Tally) (p : AnyPolicy) (a : Arrival)
    (hroom : p.blocks + 1 < 2 ^ 64) :
    (Metrics.ofTally t p).recordAll (LossPolicy.decide p a).measurements =
        Metrics.ofTally t (LossPolicy.decide p a).next ∧
      (LossPolicy.decide p a).next.blocks ≤ p.blocks + 1 := by
  cases p with
  | index p => exact ⟨rfl, Nat.zero_le _⟩
  | block p =>
    exact BlockPolicy.recordAll_decide p.rule p.state a (Metrics.ofTally t (.block p)) rfl rfl hroom

end AnyPolicy

/-! ### Counting entries -/

/-- The counters that go up by one with every entry of their kind. -/
inductive Count where
  | received | forwarded | receiveFailures | sendFailures
  deriving DecidableEq

def Tally.get (t : Tally) : Count → UInt64
  | .received => t.received
  | .forwarded => t.forwarded
  | .receiveFailures => t.receiveFailures
  | .sendFailures => t.sendFailures

def Entry.count? : Entry → Option Count
  | .judge _ _ => some .received
  | .forwarded _ => some .forwarded
  | .failed .receive => some .receiveFailures
  | .failed .send => some .sendFailures
  | _ => none

def Entry.raises (c : Count) (es : List Entry) : Nat := es.countP fun e => e.count? == some c

namespace Ledger

variable {l : Ledger AnyPolicy}

theorem get_enter (l : Ledger AnyPolicy) (e : Entry) (c : Count) :
    (l.enter e).tally.get c = l.tally.get c + if e.count? = some c then 1 else 0 := by
  cases e with
  | judge size time =>
    change (l.judge size time).1.tally.get c = _
    rw [judge_tally]
    cases c with
    | received => rfl
    | _ => exact (UInt64.add_zero _).symm
  | forwarded bytes =>
    cases c with
    | forwarded => rfl
    | _ => exact (UInt64.add_zero _).symm
  | failed op =>
    cases op with
    | receive =>
      cases c with
      | receiveFailures => rfl
      | _ => exact (UInt64.add_zero _).symm
    | send =>
      cases c with
      | sendFailures => rfl
      | _ => exact (UInt64.add_zero _).symm
  | _ => cases c <;> exact (UInt64.add_zero _).symm

/-- No counter comes back to zero within the given entries. -/
def Room (l : Ledger AnyPolicy) (es : List Entry) : Prop :=
  ∀ c, (l.tally.get c).toNat + Entry.raises c es < 2 ^ 64

theorem Room.head {e : Entry} {es : List Entry} (h : l.Room (e :: es)) {c : Count}
    (hc : e.count? = some c) : (l.tally.get c).toNat + 1 < 2 ^ 64 := by
  have hsum := h c
  have hcount : Entry.raises c (e :: es) = Entry.raises c es + 1 :=
    List.countP_cons_of_pos (by simp [hc])
  omega

theorem Room.tail {e : Entry} {es : List Entry} (h : l.Room (e :: es)) : (l.enter e).Room es := by
  intro c
  have hsum := h c
  rw [get_enter]
  by_cases hc : e.count? = some c
  · have hcount : Entry.raises c (e :: es) = Entry.raises c es + 1 :=
      List.countP_cons_of_pos (by simp [hc])
    rw [if_pos hc, Metrics.toNat_succ (h.head hc)]
    omega
  · have hcount : Entry.raises c (e :: es) = Entry.raises c es :=
      List.countP_cons_of_neg (by simpa using hc)
    rw [if_neg hc, UInt64.add_zero]
    omega

/-! ### One entry, and any number of them -/

/-- Books whose metrics agree with their tally and their policy. -/
structure InStep (l : Ledger AnyPolicy) : Prop where
  metrics : l.metrics = .ofTally l.tally l.policy
  bytesReceived : l.tally.received = 0 → l.tally.bytesReceived = 0
  bytesForwarded : l.tally.forwarded = 0 → l.tally.bytesForwarded = 0
  dropped : l.tally.dropped.toNat ≤ l.tally.received.toNat
  blocks : l.policy.blocks ≤ l.tally.received.toNat

/-- An arrival that has been counted and decided on, before a drop is counted. -/
theorem InStep.arrive (h : l.InStep) (size : UInt64) (time : Span)
    (hroom : l.tally.received.toNat + 1 < 2 ^ 64) :
    let m := (l.countArrival size).adopt (l.decision size time)
    m.InStep ∧ m.tally.dropped.toNat < m.tally.received.toNat := by
  intro m
  have hblocks := h.blocks
  have hreceived : m.tally.received.toNat = l.tally.received.toNat + 1 := Metrics.toNat_succ hroom
  obtain ⟨hmeasured, hgrown⟩ : (Metrics.ofTally m.tally l.policy).recordAll
      (l.decision size time).measurements = .ofTally m.tally m.policy ∧
        m.policy.blocks ≤ l.policy.blocks + 1 :=
    AnyPolicy.recordAll_decide m.tally l.policy _ (by omega)
  have hmetrics : m.metrics = .ofTally m.tally m.policy := by
    rw [← hmeasured]
    change (l.metrics.record (.received size)).recordAll (l.decision size time).measurements = _
    rw [h.metrics, Metrics.record_received size hroom h.bytesReceived]
    rfl
  have hdropped : m.tally.dropped.toNat < m.tally.received.toNat := by
    rw [hreceived]
    exact Nat.lt_succ_of_le h.dropped
  refine ⟨⟨hmetrics, fun h0 => absurd h0 (Metrics.succ_ne_zero hroom), h.bytesForwarded,
    Nat.le_of_lt hdropped, ?_⟩, hdropped⟩
  rw [hreceived]
  exact hgrown.trans (Nat.succ_le_succ hblocks)

theorem InStep.countDrop (h : l.InStep) (hone : l.tally.dropped.toNat < l.tally.received.toNat)
    (index size : UInt64) : (l.countDrop (LossPolicy.name l.policy) index size).InStep := by
  have hroom : l.tally.dropped.toNat + 1 < 2 ^ 64 :=
    Nat.lt_of_le_of_lt hone l.tally.received.toNat_lt
  refine ⟨?_, h.bytesReceived, h.bytesForwarded, ?_, h.blocks⟩
  · change l.metrics.record (.dropped (LossPolicy.name l.policy)) = _
    rw [h.metrics, Metrics.record_dropped hroom]
    rfl
  · change (l.tally.dropped + 1).toNat ≤ l.tally.received.toNat
    rw [Metrics.toNat_succ hroom]
    exact hone

theorem InStep.judge (h : l.InStep) (size : UInt64) (time : Span)
    (hroom : l.tally.received.toNat + 1 < 2 ^ 64) : (l.judge size time).1.InStep := by
  obtain ⟨harrived, hdropped⟩ := h.arrive size time hroom
  unfold Ledger.judge
  dsimp only
  split
  · exact harrived
  · exact harrived.countDrop hdropped _ _

/-- **One entry keeps the metrics in step.** -/
theorem InStep.enter (h : l.InStep) {e : Entry} {es : List Entry} (hroom : l.Room (e :: es)) :
    (l.enter e).InStep := by
  cases e with
  | judge size time => exact h.judge size time (hroom.head rfl)
  | forwarded bytes =>
    have hone := hroom.head (c := .forwarded) rfl
    refine ⟨?_, h.bytesReceived, fun h0 => absurd h0 (Metrics.succ_ne_zero hone), h.dropped,
      h.blocks⟩
    change l.metrics.record (.forwarded bytes) = _
    rw [h.metrics, Metrics.record_forwarded bytes hone h.bytesForwarded]
    rfl
  | failed op =>
    cases op with
    | receive =>
      have hone := hroom.head (c := .receiveFailures) rfl
      refine ⟨?_, h.bytesReceived, h.bytesForwarded, h.dropped, h.blocks⟩
      change l.metrics.record (.failed .receive) = _
      rw [h.metrics, Metrics.record_failed_receive hone]
      rfl
    | send =>
      have hone := hroom.head (c := .sendFailures) rfl
      refine ⟨?_, h.bytesReceived, h.bytesForwarded, h.dropped, h.blocks⟩
      change l.metrics.record (.failed .send) = _
      rw [h.metrics, Metrics.record_failed_send hone]
      rfl
  | _ => exact ⟨h.metrics, h.bytesReceived, h.bytesForwarded, h.dropped, h.blocks⟩

theorem InStep.enterAll (h : l.InStep) {es : List Entry} (hroom : l.Room es) :
    (l.enterAll es).InStep := by
  induction es generalizing l with
  | nil => exact h
  | cons e es ih => exact ih (h.enter hroom) hroom.tail

theorem fresh_inStep (settings : PolicySettings) (queue : TraceQueue) :
    (fresh settings.policy queue).InStep := by
  have hpolicy : settings.policy.blockState?.bind (fun s => Metrics.shown s.block s.block) = none ∧
      settings.policy.blockState?.bind (·.learned) = none ∧ settings.policy.blocks = 0 := by
    unfold PolicySettings.policy
    split <;> exact ⟨rfl, rfl, rfl⟩
  obtain ⟨hblocks, hsize, hzero⟩ := hpolicy
  refine ⟨?_, fun _ => rfl, fun _ => rfl, Nat.le_refl _, Nat.le_of_eq hzero⟩
  unfold Metrics.ofTally
  rw [show (fresh settings.policy queue).policy = settings.policy from rfl, hblocks, hsize]
  rfl

/-- **Metrics and tally never drift apart.**  Whatever entries are made in fresh books, in any order,
the metrics are those of the tally and of the policy, as long as no counter is raised `2 ^ 64`
times; so exactly that is published. -/
theorem metrics_eq_ofTally (settings : PolicySettings) (queue : TraceQueue) (es : List Entry)
    (hroom : ∀ c, Entry.raises c es < 2 ^ 64) :
    let l := (fresh settings.policy queue).enterAll es
    l.metrics = .ofTally l.stats l.policy ∧
      l.metrics.samples = Metrics.published l.stats l.policy := by
  intro l
  have hstart : (fresh settings.policy queue).Room es := by
    intro c
    have hzero : ((fresh settings.policy queue).tally.get c).toNat = 0 := by cases c <;> rfl
    rw [hzero, Nat.zero_add]
    exact hroom c
  have hmetrics : l.metrics = .ofTally l.stats l.policy :=
    ((fresh_inStep settings queue).enterAll hstart).metrics
  refine ⟨hmetrics, ?_⟩
  rw [hmetrics]
  exact Metrics.samples_ofTally l.stats l.policy

/-- Two blocks, tuned to the first position of the second, with a short send, a failed send and a
failed receive: every metric is touched. -/
theorem metrics_of_two_blocks :
    let settings : PolicySettings :=
      { PolicySettings.reference with kind := .byBlock, blockRule := ⟨500, 1, 0⟩ }
    let es : List Entry :=
      [.judge 4 .zero, .forwarded 4, .flush, .judge 8 (.ofMillis 10), .forwarded 3, .failed .receive,
        .oversize 8, .judge 8 (.ofMillis 511), .flush, .judge 2 (.ofMillis 511), .failed .send]
    let l := (fresh settings.policy .disabled).enterAll es
    (∀ c, Entry.raises c es < 2 ^ 64) ∧
    l.metrics =
      { datagramsReceived := some 4, bytesReceived := some 22, datagramsForwarded := some 2,
        bytesForwarded := some 7, datagramsDropped := [("adaptive", 1)], receiveErrors := some 1,
        sendErrors := some 1, blocksFinished := some 1, blockSize := some 1 } := by
  intro settings es l
  have hroom : ∀ c, Entry.raises c es < 2 ^ 64 := by
    intro c
    cases c <;> decide
  obtain ⟨hmetrics, -⟩ := metrics_eq_ofTally settings .disabled es hroom
  exact ⟨hroom, hmetrics.trans (by decide)⟩

end Ledger

end LossRelay
