import LossRelay.Proofs.Policy.Blocks
import LossRelay.Proofs.Policy.TraceReading

/-!
# What a true trace reports of blocks

The ends of blocks and their size, as a trace of a history reports them if it is true, and how this
lasts when the history grows: a packet that joins the last block leaves the ends before it as they
are (`BlockEnds.stay`), and one that opens a block adds an end (`BlockEnds.opens`).
-/

namespace LossRelay

/-! ### What a true trace reports -/

/-- The end of the block `b` before the block `b'`, with so many packets before `b'`: the last
position in `b`, and the exact time that passed between the two. -/
structure Boundary.Marks (before : Nat) (b b' : List Arrival) (e : Boundary) : Prop where
  packets : e.packetsBefore.toNat = before
  lastSymbol : e.lastSymbol.toNat = b.length - 1
  gap : ∀ p ∈ b.getLast?, ∀ q ∈ b'.head?, p.time.toNanos + e.gap.toNanos = q.time.toNanos

/-- The ends of all blocks but the last, in order. -/
structure BlockEnds (blocks : List (List Arrival)) (es : List Boundary) : Prop where
  count : es.length = blocks.length - 1
  marks {k : Nat} {b b' : List Arrival} (hb : blocks[k]? = some b)
    (hb' : blocks[k + 1]? = some b') :
    ∃ e, es[k]? = some e ∧ e.Marks (blocks.take (k + 1)).flatten.length b b'

/-- A trace that starts with the end of the first block and, directly after it, reports the size of
blocks, with the offset exactly if that is the tuned size; it does not report a size again. -/
def StartsWithSize (rule : BlockRule) (first : List Arrival) (trace : List TraceEvent) : Prop :=
  ∃ packets lastSymbol gap size rest,
    trace = .blockFinished packets lastSymbol gap ::
      .blockSizeLearned size
        (if first.length = rule.tunedSize.toNat + 1 then some rule.offset else none) :: rest ∧
    size.toNat = first.length - 1 ∧ ∀ e ∈ rest, e.isSize = false

/-- Nothing is reported before the second block. -/
def SizeReported (rule : BlockRule) (blocks : List (List Arrival)) (trace : List TraceEvent) :
    Prop :=
  match blocks with
  | first :: _ :: _ => StartsWithSize rule first trace
  | _ => trace = []

/-! ### How blocks and their ends grow -/

theorem BlockEnds.stay {bs : List (List Arrival)} {b : List Arrival} {es : List Boundary}
    (h : BlockEnds (bs ++ [b]) es) (hb : b ≠ []) (a : Arrival) :
    BlockEnds (bs ++ [b ++ [a]]) es where
  count := by
    rw [h.count]
    simp
  marks {k c c'} hc hc' := by
    have hk : k + 1 < bs.length + 1 := by
      have hlt := (List.getElem?_eq_some_iff.mp hc').1
      simpa using hlt
    have hk' : k < bs.length := Nat.lt_of_succ_lt_succ hk
    rw [List.getElem?_append_left hk'] at hc
    rw [List.take_append_of_le_length hk']
    have hold : (bs ++ [b])[k]? = some c := by rw [List.getElem?_append_left hk', hc]
    by_cases hlast : k + 1 < bs.length
    · rw [List.getElem?_append_left hlast] at hc'
      have hold' : (bs ++ [b])[k + 1]? = some c' := by rw [List.getElem?_append_left hlast, hc']
      obtain ⟨e, he, hmarks⟩ := h.marks hold hold'
      rw [List.take_append_of_le_length hk'] at hmarks
      exact ⟨e, he, hmarks⟩
    · -- the block that grows keeps its first packet
      have hlen : k + 1 = bs.length := by omega
      rw [hlen, List.getElem?_concat_length] at hc'
      obtain rfl := Option.some.inj hc'
      have hold' : (bs ++ [b])[k + 1]? = some b := by rw [hlen, List.getElem?_concat_length]
      obtain ⟨e, he, hpackets, hsymbol, hgap⟩ := h.marks hold hold'
      rw [List.take_append_of_le_length hk'] at hpackets
      refine ⟨e, he, hpackets, hsymbol, ?_⟩
      rwa [List.head?_append_of_ne_nil _ hb]

theorem BlockEnds.opens {bs : List (List Arrival)} {b : List Arrival} {es : List Boundary}
    (h : BlockEnds (bs ++ [b]) es) {a : Arrival} {e : Boundary}
    (he : e.Marks (bs ++ [b]).flatten.length b [a]) :
    BlockEnds (bs ++ [b] ++ [[a]]) (es ++ [e]) where
  count := by
    have hcount := h.count
    simp only [List.length_append, List.length_singleton] at hcount ⊢
    omega
  marks {k c c'} hc hc' := by
    have hcount : es.length = bs.length := by simpa using h.count
    have hk : k + 1 < bs.length + 1 + 1 := by
      have hlt := (List.getElem?_eq_some_iff.mp hc').1
      simpa using hlt
    have hlen : k + 1 ≤ (bs ++ [b]).length := by
      rw [List.length_append, List.length_singleton]
      omega
    rw [List.getElem?_append_left hlen] at hc
    rw [List.take_append_of_le_length hlen]
    by_cases hlast : k + 1 < (bs ++ [b]).length
    · rw [List.getElem?_append_left hlast] at hc'
      obtain ⟨e', he', hmarks⟩ := h.marks hc hc'
      have hk' := (List.getElem?_eq_some_iff.mp he').1
      exact ⟨e', by rw [List.getElem?_append_left hk', he'], hmarks⟩
    · have hk' : k + 1 = (bs ++ [b]).length := by omega
      have hbs : k = bs.length := by simpa using hk'
      rw [hk', List.getElem?_concat_length] at hc'
      rw [hbs, List.getElem?_concat_length] at hc
      obtain rfl := Option.some.inj hc
      obtain rfl := Option.some.inj hc'
      rw [hk', List.take_length]
      exact ⟨e, by rw [hbs, ← hcount, List.getElem?_concat_length], he⟩

/-! ### How the report of the size lasts -/

theorem StartsWithSize.append {rule : BlockRule} {first : List Arrival} {trace new : List TraceEvent}
    (h : StartsWithSize rule first trace) (hnew : ∀ e ∈ new, e.isSize = false) :
    StartsWithSize rule first (trace ++ new) := by
  obtain ⟨packets, lastSymbol, gap, size, rest, rfl, hsize, hrest⟩ := h
  refine ⟨packets, lastSymbol, gap, size, rest ++ new, rfl, hsize, fun e he => ?_⟩
  rcases List.mem_append.mp he with he | he
  · exact hrest e he
  · exact hnew e he

theorem sizeReported_later {rule : BlockRule} {first : List Arrival} {later : List (List Arrival)}
    {trace : List TraceEvent} (h : later ≠ []) :
    SizeReported rule (first :: later) trace ↔ StartsWithSize rule first trace := by
  cases later with
  | nil => exact absurd rfl h
  | cons second later => exact Iff.rfl

end LossRelay
