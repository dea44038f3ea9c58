import LossRelay.Proofs.Config.RouteGrammar

/-!
# The text of a route

A route is read back from its text if its remote port is not zero and its host is a text without
colons and without blanks at its ends (`Route.Plain`), and every route that is read from any text is
of this kind.  So the text of a route that has been read stands for the route, and for no other.
-/

namespace LossRelay.Route

/-- A route that a text can stand for. -/
structure Plain (r : Route) : Prop where
  remotePort_ne : r.remotePort ≠ 0
  host_ne : r.host ≠ ""
  host_colon : ':' ∉ r.host.toList
  host_tight : Text.Tight r.host.toList

variable {r : Route}

theorem portText_digits (port : UInt16) : PortText port (Numeral.digits port.toNat) :=
  ⟨[], _, Or.inl rfl, Nat.toDigits_ne_nil, fun _ hd => Numeral.isDigit_of_mem_digits hd,
    Numeral.value_digits _, Text.Pads.refl _⟩

theorem colon_not_mem_digits (n : Nat) : ':' ∉ Numeral.digits n := by
  intro hmem
  have hdigit := Numeral.isDigit_of_mem_digits hmem
  cases hdigit

theorem mem_of_pads {inner cs : List Char} {c : Char} (h : Text.Pads inner cs) (hc : c ∈ inner) :
    c ∈ cs := by
  obtain ⟨w, w', -, -, rfl⟩ := h
  exact List.mem_append_right _ (List.mem_append_left _ hc)

theorem Plain.written (h : r.Plain) : r.Written r.text.toList := by
  have htext : r.text.toList = Numeral.digits r.localPort.toNat ++
      ':' :: (r.host.toList ++ ':' :: Numeral.digits r.remotePort.toNat) := String.toList_ofList
  have hhost : r.host.toList ≠ [] := fun hnil => h.host_ne (String.toList_eq_nil_iff.mp hnil)
  exact ⟨_, _, _, ⟨htext, colon_not_mem_digits _, h.host_colon, colon_not_mem_digits _⟩,
    portText_digits _, portText_digits _, h.remotePort_ne, Text.Pads.refl _, h.host_tight, hhost⟩

theorem Written.plain {text : List Char} (h : r.Written text) : r.Plain := by
  obtain ⟨l, host, p, hparts, -, -, hport, hpads, htight, hhost⟩ := h
  refine ⟨hport, fun hnil => hhost (String.toList_eq_nil_iff.mpr hnil), fun hcolon => ?_, htight⟩
  exact hparts.middle (mem_of_pads hpads hcolon)

/-- **A route and its text.**  A route is read back from its text exactly if its remote port is not
zero and its host is a text without colons and without blanks at its ends.  A route that has been
read from a text is of this kind; so its own text gives it again, and whatever that text gives has
the same text. -/
theorem parse_text_of_plain (r : Route) :
    (parse r.text = .ok r ↔ r.Plain) ∧
    ∀ text, parse text = .ok r →
      r.Plain ∧ parse r.text = .ok r ∧ ∀ r', parse r.text = .ok r' → r'.text = r.text := by
  have hback (h : r.Plain) : parse r.text = .ok r := parse_of_written h.written
  refine ⟨⟨fun h => (written_of_parse h).plain, hback⟩, fun text h => ?_⟩
  have hplain := (written_of_parse h).plain
  refine ⟨hplain, hback hplain, fun r' hr' => ?_⟩
  rw [hback hplain] at hr'
  exact congrArg Route.text (Except.ok.inj hr').symm

/-- A route with blanks, a plus sign and leading zeros in its text, and the text of the route. -/
theorem parse_text_of_padded :
    let r : Route := ⟨9000, "a b", 53⟩
    parse " +9000:\u2003a b\t:\n0000053" = .ok r ∧ r.Plain ∧ parse "9000:a b:53" = .ok r := by
  intro r
  have hread : parse " +9000:\u2003a b\t:\n0000053" = .ok r := rfl
  have htext : r.text = "9000:a b:53" := by decide +kernel
  obtain ⟨hplain, hagain, -⟩ := (parse_text_of_plain r).2 _ hread
  exact ⟨hread, hplain, htext ▸ hagain⟩

end LossRelay.Route
