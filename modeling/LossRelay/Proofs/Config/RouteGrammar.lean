import LossRelay.Config.Route
import LossRelay.Proofs.Text.Parts

/-!
# The grammar of routes

A route is a local port, a host and a remote port between two colons, each of them between any
blanks.  `Route.Written` says which texts stand for a route and `Route.Refused` which error any
other text gives: the first one in the order of the number of parts, the local port, the remote port
and the host.  Reading a route follows the two (`Route.parse_outcome`).
-/

namespace LossRelay

namespace Route

/-- A text with exactly two colons, by what stands around them. -/
structure Parts (text l h p : List Char) : Prop where
  text_eq : text = l ++ ':' :: (h ++ ':' :: p)
  left : ':' ∉ l
  middle : ':' ∉ h
  right : ':' ∉ p

/-- A port as it is typed: an optional plus sign and digits, as many as one likes, between blanks. -/
def PortText (port : UInt16) (cs : List Char) : Prop :=
  ∃ sign ds, (sign = [] ∨ sign = ['+']) ∧ ds ≠ [] ∧ (∀ d ∈ ds, d.isDigit = true) ∧
    Numeral.value ds = port.toNat ∧ Text.Pads (sign ++ ds) cs

/-- A text that stands for a route. -/
def Written (r : Route) (text : List Char) : Prop :=
  ∃ l h p, Parts text l h p ∧ PortText r.localPort l ∧ PortText r.remotePort p ∧
    r.remotePort ≠ 0 ∧ Text.Pads r.host.toList h ∧ Text.Tight r.host.toList ∧ r.host.toList ≠ []

/-- Why a text stands for no route: the first thing wrong with it. -/
inductive Refused (text : String) : ConfigError → Prop
  | parts (h : text.toList.count ':' ≠ 2) : Refused text (.notARoute text)
  | localPort {l h p : List Char} (hparts : Parts text.toList l h p)
    (hl : ∀ port, ¬ PortText port l) : Refused text (.badPort (String.ofList l))
  | remotePort {l h p : List Char} {port : UInt16} (hparts : Parts text.toList l h p)
    (hl : PortText port l) (hp : ∀ port, PortText port p → port = 0) :
    Refused text (.badPort (String.ofList p))
  | host {l h p : List Char} {port port' : UInt16} (hparts : Parts text.toList l h p)
    (hl : PortText port l) (hp : PortText port' p) (hport : port' ≠ 0)
    (hh : Text.AllBlank h) : Refused text (.notARoute text)

/-! ### Parts -/

theorem Parts.cut {text l h p : List Char} (hparts : Parts text l h p) :
    Text.cut ':' text = [l, h, p] := by
  rw [hparts.text_eq, Text.cut_append_mark hparts.left, Text.cut_append_mark hparts.middle,
    Text.cut_of_not_mem hparts.right]

theorem exists_parts {text : List Char} (hcount : text.count ':' = 2) :
    ∃ l h p, Parts text l h p := by
  have hmem : ':' ∈ text := List.count_pos_iff.mp (by omega)
  obtain ⟨l, rest, rfl, hl⟩ := List.eq_append_cons_of_mem hmem
  have hrest : rest.count ':' = 1 := by
    rw [List.count_append, List.count_cons_self, List.count_eq_zero.mpr hl] at hcount
    omega
  have hmem' : ':' ∈ rest := List.count_pos_iff.mp (by omega)
  obtain ⟨h, p, rfl, hh⟩ := List.eq_append_cons_of_mem hmem'
  have hp : p.count ':' = 0 := by
    rw [List.count_append, List.count_cons_self, List.count_eq_zero.mpr hh] at hrest
    omega
  exact ⟨l, h, p, rfl, hl, hh, List.count_eq_zero.mp hp⟩

/-! ### Ports -/

theorem isBlank_of_isDigit {d : Char} (hd : d.isDigit = true) : Text.isBlank d = false := by
  have hrange : 48 ≤ d.toNat ∧ d.toNat ≤ 57 := by
    simpa [Char.isDigit, UInt32.le_iff_toNat_le] using hd
  simp [Text.isBlank, Text.inRanges, Text.blankRanges]
  omega

theorem tight_numeral {sign ds : List Char} (hsign : sign = [] ∨ sign = ['+']) (hds : ds ≠ [])
    (hdigits : ∀ d ∈ ds, d.isDigit = true) : Text.Tight (sign ++ ds) := by
  constructor
  · rcases hsign with rfl | rfl
    · intro c hc
      exact isBlank_of_isDigit (hdigits c (List.mem_of_mem_head? hc))
    · rintro c ⟨⟩
      decide
  · intro c hc
    rw [List.getLast?_append_of_ne_nil _ hds] at hc
    exact isBlank_of_isDigit (hdigits c (List.mem_of_mem_getLast? hc))

theorem dropPlus_numeral {sign ds : List Char} (hsign : sign = [] ∨ sign = ['+']) (hds : ds ≠ [])
    (hdigits : ∀ d ∈ ds, d.isDigit = true) : Numeral.dropPlus (sign ++ ds) = ds := by
  rcases hsign with rfl | rfl
  · obtain ⟨d, ds, rfl⟩ := List.exists_cons_of_ne_nil hds
    have hd := hdigits d (List.mem_cons_self ..)
    unfold Numeral.dropPlus
    split
    · rename_i heq
      obtain ⟨rfl, -⟩ := List.cons.inj heq
      cases hd
    · rfl
  · rfl

theorem exists_sign (cs : List Char) :
    ∃ sign, (sign = [] ∨ sign = ['+']) ∧ cs = sign ++ Numeral.dropPlus cs := by
  unfold Numeral.dropPlus
  split
  · exact ⟨['+'], Or.inr rfl, rfl⟩
  · exact ⟨[], Or.inl rfl, rfl⟩

theorem readPort_eq_ok_iff {cs : List Char} {port : UInt16} :
    readPort cs = .ok port ↔ PortText port cs := by
  constructor
  · intro h
    unfold readPort Numeral.read? at h
    dsimp only at h
    split at h
    · rename_i n hn
      split at hn
      · rename_i hok
        obtain ⟨hne, hdigits, hle⟩ := hok
        obtain rfl := Option.some.inj hn
        obtain rfl := Except.ok.inj h
        obtain ⟨sign, hsign, heq⟩ := exists_sign (Text.trim cs)
        refine ⟨sign, _, hsign, hne, List.all_eq_true.mp hdigits, ?_, heq ▸ Text.pads_trim cs⟩
        exact (UInt16.toNat_ofNat_of_lt' (Nat.lt_succ_of_le hle)).symm
      · cases hn
    · cases h
  · rintro ⟨sign, ds, hsign, hne, hdigits, hvalue, hpads⟩
    have htrim := Text.trim_eq_iff.mpr ⟨hpads, tight_numeral hsign hne hdigits⟩
    have hle : Numeral.value ds ≤ 65535 := hvalue ▸ Nat.le_of_lt_succ port.toNat_lt
    have hread : Numeral.read? 65535 (Text.trim cs) = some (Numeral.value ds) := by
      unfold Numeral.read?
      rw [htrim, dropPlus_numeral hsign hne hdigits]
      exact if_pos ⟨hne, List.all_eq_true.mpr hdigits, hle⟩
    unfold readPort
    rw [hread, hvalue]
    exact congrArg Except.ok UInt16.ofNat_toNat

theorem readPort_of_not_portText {cs : List Char} (h : ∀ port, ¬ PortText port cs) :
    readPort cs = .error (.badPort (String.ofList cs)) := by
  cases hread : readPort cs with
  | ok port => exact absurd (readPort_eq_ok_iff.mp hread) (h port)
  | error e =>
    unfold readPort at hread
    split at hread
    · cases hread
    · exact hread ▸ rfl

/-! ### Routes -/

theorem parse_of_parts {text : String} {l h p : List Char} (hparts : Parts text.toList l h p) :
    parse text = (do
      let localPort ← readPort l
      let remotePort ← readPort p
      if remotePort = 0 then .error (.badPort (String.ofList p))
      else if Text.trim h = [] then .error (.notARoute text)
      else .ok ⟨localPort, String.ofList (Text.trim h), remotePort⟩) := by
  unfold parse
  rw [hparts.cut]

theorem parse_of_count_ne {text : String} (h : text.toList.count ':' ≠ 2) :
    parse text = .error (.notARoute text) := by
  unfold parse
  split
  · rename_i l m p hcut
    have hlength := Text.length_cut ':' text.toList
    rw [hcut] at hlength
    exact absurd (Nat.succ.inj hlength).symm h
  · rfl

theorem parse_of_written {text : String} {r : Route} (h : r.Written text.toList) :
    parse text = .ok r := by
  obtain ⟨l, host, p, hparts, hl, hp, hport, hpads, htight, hhost⟩ := h
  have htrim := Text.trim_eq_iff.mpr ⟨hpads, htight⟩
  rw [parse_of_parts hparts, readPort_eq_ok_iff.mpr hl, readPort_eq_ok_iff.mpr hp]
  change (if r.remotePort = 0 then _ else if Text.trim host = [] then _ else _) = _
  rw [if_neg hport, htrim, if_neg hhost, String.ofList_toList]

theorem parse_of_refused {text : String} {e : ConfigError} (h : Refused text e) :
    parse text = .error e := by
  cases h with
  | parts h => exact parse_of_count_ne h
  | localPort hparts hl =>
    rw [parse_of_parts hparts, readPort_of_not_portText hl]
    rfl
  | @remotePort l h p port hparts hl hp =>
    rw [parse_of_parts hparts, readPort_eq_ok_iff.mpr hl]
    cases hread : readPort p with
    | ok port' =>
      obtain rfl := hp port' (readPort_eq_ok_iff.mp hread)
      rfl
    | error e =>
      have hnot : ∀ port, ¬ PortText port p := by
        intro port' hport'
        rw [readPort_eq_ok_iff.mpr hport'] at hread
        cases hread
      rw [readPort_of_not_portText hnot] at hread
      obtain rfl := Except.error.inj hread
      rfl
  | @host l h p port port' hparts hl hp hport hh =>
    rw [parse_of_parts hparts, readPort_eq_ok_iff.mpr hl, readPort_eq_ok_iff.mpr hp]
    change (if port' = 0 then _ else if Text.trim h = [] then _ else _) = _
    rw [if_neg hport, if_pos (Text.trim_eq_nil_iff.mpr hh)]

theorem written_or_refused (text : String) :
    (∃ r : Route, r.Written text.toList) ∨ ∃ e, Refused text e := by
  by_cases hcount : text.toList.count ':' = 2
  · obtain ⟨l, h, p, hparts⟩ := exists_parts hcount
    by_cases hl : ∃ port, PortText port l
    · obtain ⟨localPort, hl⟩ := hl
      by_cases hp : ∃ port, PortText port p ∧ port ≠ 0
      · obtain ⟨remotePort, hp, hport⟩ := hp
        by_cases hh : Text.AllBlank h
        · exact Or.inr ⟨_, .host hparts hl hp hport hh⟩
        · left
          refine ⟨⟨localPort, String.ofList (Text.trim h), remotePort⟩, l, h, p, hparts, hl, hp,
            hport, ?_⟩
          rw [String.toList_ofList]
          exact ⟨Text.pads_trim h, Text.tight_trim h, fun hnil => hh (Text.trim_eq_nil_iff.mp hnil)⟩
      · right
        refine ⟨_, .remotePort hparts hl fun port hport => ?_⟩
        by_contra hne
        exact hp ⟨port, hport, hne⟩
    · exact Or.inr ⟨_, .localPort hparts fun port hport => hl ⟨port, hport⟩⟩
  · exact Or.inr ⟨_, .parts hcount⟩

theorem written_of_parse {text : String} {r : Route} (h : parse text = .ok r) :
    r.Written text.toList := by
  rcases written_or_refused text with ⟨r', hr'⟩ | ⟨e, he⟩
  · rw [parse_of_written hr'] at h
    exact Except.ok.inj h ▸ hr'
  · rw [parse_of_refused he] at h
    cases h

theorem refused_of_parse {text : String} {e : ConfigError} (h : parse text = .error e) :
    Refused text e := by
  rcases written_or_refused text with ⟨r, hr⟩ | ⟨e', he'⟩
  · rw [parse_of_written hr] at h
    cases h
  · rw [parse_of_refused he'] at h
    exact Except.error.inj h ▸ he'

/-- **The outcome of reading a route.**  A text gives a route exactly if it stands for it: two ports
and a host between two colons, with any blanks around each, a plus sign and leading zeros allowed in
front of a port, the remote port not zero and the host not blank.  Every other text gives the first
error that applies: a wrong number of parts, a local port that is none, a remote port that is none or
zero, each as it is written, and a blank host. -/
theorem parse_outcome (text : String) :
    (∀ r, parse text = .ok r ↔ r.Written text.toList) ∧
    (∀ e, parse text = .error e ↔ Refused text e) :=
  ⟨fun _ => ⟨written_of_parse, parse_of_written⟩, fun _ => ⟨refused_of_parse, parse_of_refused⟩⟩

example : parse "+9000: :070000 " = .error (.badPort "070000 ") := rfl

end Route

end LossRelay
