import LossRelay.Config.Relay
import LossRelay.Proofs.Address.RoundTrip
import LossRelay.Proofs.Json.Complete
import LossRelay.Relay.Tally

/-!
# Tallies and relay settings are read back

The documents of a tally and of relay settings must give every field.  Numbers of every width and
endpoints of both kinds are read back from their texts, so the documents are read back in whatever
order their members stand, and the first field that one leaves out is reported
(`tally_and_settings_readBack`).
-/

namespace LossRelay

open Json

/-! ### Endpoints -/

/-- The text of an endpoint as a string literal, with any escapes. -/
def EndpointText (e : Endpoint) (text : List Char) : Prop :=
  ∃ key, StringText e.text key ∧ text = '"' :: key

theorem endpoint_written : Written RelaySettings.readEndpoint EndpointText where
  lenient := by
    intro w s hw
    unfold RelaySettings.readEndpoint
    rw [text_lenient _ w s hw]
  text e := by
    obtain ⟨key, hkey⟩ := exists_stringText e.text
    exact ⟨_, key, hkey, rfl⟩
  formed := by
    rintro e _ ⟨_, ⟨body, hbody, rfl⟩, rfl⟩
    exact .string hbody.shaped
  reads := by
    rintro e _ ⟨key, hkey, rfl⟩ rest hrest
    unfold RelaySettings.readEndpoint
    rw [text_reads _ hkey rest hrest, ok_bind]
    dsimp only
    rw [Endpoint.text, String.toList_ofList, Endpoint.parse?_chars]

/-! ### Records -/

namespace Tally

def counterSlot (name : String) (get : Tally → UInt64) (store : Tally → UInt64 → Tally) :
    Slot Tally :=
  .of name (DecimalText UInt64.toNat) get store

theorem counterSlot_fits (name : String) (get : Tally → UInt64) (store : Tally → UInt64 → Tally) :
    (counterSlot name get store).Fits (counterField name store) :=
  natural64_written.fits get rfl fun _ _ => rfl

def slots : List (Slot Tally) :=
  [counterSlot "datagrams_received" received fun t n => { t with received := n },
    counterSlot "datagrams_forwarded" forwarded fun t n => { t with forwarded := n },
    counterSlot "datagrams_dropped" dropped fun t n => { t with dropped := n },
    counterSlot "bytes_received" bytesReceived fun t n => { t with bytesReceived := n },
    counterSlot "bytes_forwarded" bytesForwarded fun t n => { t with bytesForwarded := n },
    counterSlot "send_failures" sendFailures fun t n => { t with sendFailures := n },
    counterSlot "recv_failures" receiveFailures fun t n => { t with receiveFailures := n },
    counterSlot "datagrams_truncated" truncated fun t n => { t with truncated := n },
    counterSlot "trace_discarded" traceDiscarded fun t n => { t with traceDiscarded := n }]

theorem record_slots : record.Slots slots where
  fits := by
    refine .cons ?_ (.cons ?_ (.cons ?_ (.cons ?_ (.cons ?_ (.cons ?_ (.cons ?_ (.cons ?_
      (.cons ?_ .nil))))))))
    all_goals exact counterSlot_fits _ _ _
  nodup := by decide
  complete := rfl
  commute := by simp [slots, counterSlot, Slot.of, Slot.Commute]
  whole t := by simp only [slots, counterSlot, Slot.of, List.foldl_cons, List.foldl_nil]

/-- The first missing field is reported in the order of the fields, not in that of the text. -/
example : (ofDocument "\x7b\"bytes_received\": 7, \"datagrams_received\": 3\x7d").mapError
    Error.message = .error "missing field `datagrams_forwarded`" := by decide +kernel

end Tally

namespace RelaySettings

def slots : List (Slot RelaySettings) :=
  [.of "bind_addr" EndpointText listen fun settings listen => { settings with listen },
    .of "remote_addr" EndpointText remote fun settings remote => { settings with remote },
    .of "recv_buffer_size" (DecimalText UInt64.toNat) payloadLimit
      fun settings n => { settings with payloadLimit := n },
    .of "trace_capacity" (DecimalText UInt64.toNat) traceCapacity
      fun settings n => { settings with traceCapacity := n },
    .of "max_consecutive_io_errors" (DecimalText UInt32.toNat) errorLimit
      fun settings n => { settings with errorLimit := n }]

theorem record_slots : record.Slots slots where
  fits := by
    refine .cons ?_ (.cons ?_ (.cons ?_ (.cons ?_ (.cons ?_ .nil))))
    · exact endpoint_written.fits listen rfl fun _ _ => rfl
    · exact endpoint_written.fits remote rfl fun _ _ => rfl
    · exact size_written.fits payloadLimit rfl fun _ _ => rfl
    · exact size_written.fits traceCapacity rfl fun _ _ => rfl
    · exact natural32_written.fits errorLimit rfl fun _ _ => rfl
  nodup := by decide
  complete := rfl
  commute := by simp [slots, Slot.of, Slot.Commute]
  whole settings := by simp only [slots, Slot.of, List.foldl_cons, List.foldl_nil]

/-- A list with an address of each kind and the greatest capacity and limit. -/
example : (ofDocument
    "[\"[::1]:53\", \"10.0.0.1:9\", 1500, 18446744073709551615, 4294967295]").toOption =
    some ⟨.v6 ⟨[0, 0, 0, 0, 0, 0, 0, 1], rfl⟩ 53 0, .v4 ⟨10, 0, 0, 1⟩ 9, 1500,
      18446744073709551615, 4294967295⟩ := by decide +kernel

end RelaySettings

/-- **Tallies and relay settings are read back** from objects of all their fields in any order and
from lists of their values, and the first field that an object leaves out is reported. -/
theorem tally_and_settings_readBack :
    Tally.record.ReadsBack Tally.slots ∧ RelaySettings.record.ReadsBack RelaySettings.slots :=
  ⟨Tally.record_slots.readsBack, RelaySettings.record_slots.readsBack⟩

end LossRelay
