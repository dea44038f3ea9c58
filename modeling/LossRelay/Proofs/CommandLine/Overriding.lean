import LossRelay.CommandLine.Startup
import LossRelay.Proofs.Config.Given
import LossRelay.Proofs.Config.RoundTrip

/-!
# Flags over files over defaults

The policy settings of an invocation come from three sources: the flags, the policy file and the
reference settings.  `policySettings_sources` says which source each field comes from and that a
relay can be set up with the result.  A file must be fit to run before its values are overridden, so
a value that a flag replaces can still decide whether there are settings at all
(`sameOutcome_iff_fit`).
-/

namespace LossRelay

/-- Two lists of numbers that may have been given: both or none, and with the same members. -/
def SameMembers (xs ys : Option (List UInt64)) : Prop :=
  Option.Rel (fun xs ys => ∀ x, x ∈ xs ↔ x ∈ ys) xs ys

theorem SameMembers.map_ofList {xs ys : Option (List UInt64)} (h : SameMembers xs ys) :
    xs.map IndexSet.ofList = ys.map IndexSet.ofList := by
  cases h with
  | none => rfl
  | some h => exact congrArg some (IndexSet.ofList_congr h)

namespace Invocation

variable {inv : Invocation} {read : FileReader} {settings : PolicySettings}

/-- What the policy file of an invocation gives: nothing if there is none, and otherwise what its
document gives. -/
def FileGives (inv : Invocation) (read : FileReader) (file : GivenSettings) : Prop :=
  match inv.flags.config with
  | none => file = {}
  | some path => ∃ text, read path = .ok text ∧ GivenSettings.ofDocument text = .ok file

/-! ### The settings of an invocation -/

theorem policySettings_of_base {base : PolicySettings} (h : inv.baseSettings read = .ok base) :
    inv.policySettings read =
      match (inv.flags.override base).validate with
      | .ok () => .ok (inv.flags.override base)
      | .error cause => .error ⟨none, cause⟩ := by
  unfold policySettings
  rw [h]
  rfl

theorem policySettings_of_error {e : SettingsError} (h : inv.baseSettings read = .error e) :
    inv.policySettings read = .error e := by
  unfold policySettings
  rw [h]
  rfl

theorem policySettings_eq_ok :
    inv.policySettings read = .ok settings ↔
      ∃ base, inv.baseSettings read = .ok base ∧ settings = inv.flags.override base ∧
        settings.validate = .ok () := by
  cases hbase : inv.baseSettings read with
  | error e =>
    rw [policySettings_of_error hbase]
    refine ⟨nofun, ?_⟩
    rintro ⟨_, ⟨⟩, -, -⟩
  | ok base =>
    rw [policySettings_of_base hbase]
    cases hfit : (inv.flags.override base).validate with
    | error cause =>
      refine ⟨nofun, ?_⟩
      rintro ⟨_, ⟨⟩, rfl, hok⟩
      rw [hfit] at hok
      cases hok
    | ok _ =>
      refine ⟨?_, ?_⟩
      · rintro ⟨⟩
        exact ⟨base, rfl, rfl, hfit⟩
      · rintro ⟨_, ⟨⟩, rfl, -⟩
        rfl

theorem baseSettings_of_file {path text : String} {base : PolicySettings}
    (hpath : inv.flags.config = some path) (hread : read path = .ok text) :
    inv.baseSettings read = .ok base ↔ PolicySettings.ofDocument text = .ok base := by
  have hfile : PolicySettings.ofFile read path = PolicySettings.ofDocument text := by
    simp only [PolicySettings.ofFile, hread]
  unfold baseSettings
  rw [hpath]
  dsimp only
  rw [hfile]
  cases PolicySettings.ofDocument text with
  | ok settings => simp only [Except.ok.injEq]
  | error cause => exact ⟨nofun, nofun⟩

/-- The settings of an invocation with a well-typed file: the file is fit to run as it is, and with
the flags applied. -/
theorem policySettings_of_document (inv : Invocation) (read : FileReader) {path text : String}
    {a : PolicySettings} (hpath : inv.flags.config = some path) (hread : read path = .ok text)
    (hdoc : Json.document PolicySettings.record.read text = .ok a) (settings : PolicySettings) :
    inv.policySettings read = .ok settings ↔
      a.validate = .ok () ∧ settings = inv.flags.override a ∧ settings.validate = .ok () := by
  simp only [policySettings_eq_ok, baseSettings_of_file hpath hread,
    PolicySettings.ofDocument_eq_ok, hdoc]
  constructor
  · rintro ⟨base, ⟨hbase, hfit'⟩, hsettings, hfit⟩
    obtain rfl := Except.ok.inj hbase
    exact ⟨hfit', hsettings, hfit⟩
  · rintro ⟨hfit', hsettings, hfit⟩
    exact ⟨a, ⟨rfl, hfit'⟩, hsettings, hfit⟩

theorem exists_given_of_base {base : PolicySettings} (h : inv.baseSettings read = .ok base) :
    ∃ file, inv.FileGives read file ∧ base = file.filledFrom .reference := by
  unfold FileGives
  cases hpath : inv.flags.config with
  | none =>
    unfold baseSettings at h
    rw [hpath] at h
    exact ⟨{}, rfl, (Except.ok.inj h).symm⟩
  | some path =>
    cases hread : read path with
    | error fault =>
      unfold baseSettings PolicySettings.ofFile at h
      rw [hpath] at h
      dsimp only at h
      rw [hread] at h
      cases h
    | ok text =>
      have hdoc := (baseSettings_of_file hpath hread).mp h
      have hgiven := (PolicySettings.ofDocument_eq_ok.mp hdoc).1
      rw [PolicySettings.document_eq_given] at hgiven
      cases hfile : GivenSettings.ofDocument text with
      | error e =>
        rw [hfile] at hgiven
        cases hgiven
      | ok file =>
        rw [hfile] at hgiven
        exact ⟨file, ⟨text, hread, hfile⟩, (Except.ok.inj hgiven).symm⟩

theorem override_of_sameMembers {f : Flags} {targets exempt : Option (List UInt64)}
    (htargets : SameMembers f.targets targets) (hexempt : SameMembers f.exempt exempt)
    (base : PolicySettings) : { f with targets, exempt }.override base = f.override base := by
  unfold Flags.override
  dsimp only
  rw [htargets.map_ofList, hexempt.map_ofList]

end Invocation

/-! ### A relay with the settings -/

theorem PolicySettings.validate_policy {settings : PolicySettings}
    (h : settings.validate = .ok ()) : LossPolicy.validate settings.policy = .ok () := by
  unfold policy
  cases settings.kind with
  | byIndex => rfl
  | byBlock => exact h

namespace Relay

variable {π : Type} [LossPolicy π] {settings : RelaySettings} {policy : π}

theorem onSocket_of_validate (hs : settings.validate = .ok ())
    (hp : LossPolicy.validate policy = .ok ()) (queue : TraceQueue) :
    onSocket settings policy queue = .ok ⟨settings, .fresh policy queue⟩ := by
  unfold onSocket
  rw [hs]
  dsimp only
  rw [hp]

/-- With settings and a policy that are fit to run, only the socket can be refused. -/
theorem bind_ne_config (hs : settings.validate = .ok ()) (hp : LossPolicy.validate policy = .ok ())
    (queue : TraceQueue) (opened : Except IoFault Unit) (cause : ConfigError) :
    bind settings policy queue opened ≠ .error (.config cause) := by
  unfold bind
  rw [onSocket_of_validate hs hp]
  cases opened <;> nofun

end Relay

/-! ### The sources of the settings -/

/-- **Every field comes from the flags, else from the file, else from the reference settings.**
Whenever an invocation has policy settings, this holds of each of the seven fields, where a list of
indices that was given by flag is the whole set; the settings are fit to run, and so is their
policy, so that a relay with fit settings of its own is never refused for its configuration.  The
order and the repetitions in a list that was given by flag do not matter.  And without a file the
only reason for an error is that the reference settings, overridden by the flags, are not fit to
run. -/
theorem Invocation.policySettings_sources (inv : Invocation) (read : FileReader) :
    (∀ settings, inv.policySettings read = .ok settings →
      ∃ file, inv.FileGives read file ∧
        settings.kind = (inv.flags.policy.or file.kind).getD PolicySettings.reference.kind ∧
        settings.indexRule.windowEnd =
          (inv.flags.windowEnd.or file.indexRule.windowEnd).getD IndexRule.reference.windowEnd ∧
        settings.indexRule.targets =
          ((inv.flags.targets.map IndexSet.ofList).or file.indexRule.targets).getD
            IndexRule.reference.targets ∧
        settings.indexRule.exempt =
          ((inv.flags.exempt.map IndexSet.ofList).or file.indexRule.exempt).getD
            IndexRule.reference.exempt ∧
        settings.blockRule.silenceMs =
          (inv.flags.silenceMs.or file.blockRule.silenceMs).getD BlockRule.reference.silenceMs ∧
        settings.blockRule.tunedSize =
          (inv.flags.tunedSize.or file.blockRule.tunedSize).getD BlockRule.reference.tunedSize ∧
        settings.blockRule.offset =
          (inv.flags.offset.or file.blockRule.offset).getD BlockRule.reference.offset ∧
        (∀ xs, inv.flags.targets = some xs → ∀ x, x ∈ settings.indexRule.targets ↔ x ∈ xs) ∧
        (∀ xs, inv.flags.exempt = some xs → ∀ x, x ∈ settings.indexRule.exempt ↔ x ∈ xs) ∧
        settings.validate = .ok () ∧ LossPolicy.validate settings.policy = .ok () ∧
        ∀ limits : RelaySettings, limits.validate = .ok () → ∀ queue,
          (∃ relay, Relay.onSocket limits settings.policy queue = .ok relay) ∧
          ∀ opened cause,
            Relay.bind limits settings.policy queue opened ≠ .error (.config cause)) ∧
    (∀ targets exempt, SameMembers inv.flags.targets targets →
      SameMembers inv.flags.exempt exempt →
      policySettings { inv with flags := { inv.flags with targets, exempt } } read =
        inv.policySettings read) ∧
    (inv.flags.config = none → ∀ e, inv.policySettings read = .error e →
      e.path = none ∧ (inv.flags.override .reference).validate = .error e.cause) := by
  refine ⟨fun settings h => ?_, fun targets exempt htargets hexempt => ?_, fun hnone e h => ?_⟩
  · obtain ⟨base, hbase, rfl, hfit⟩ := policySettings_eq_ok.mp h
    obtain ⟨file, hfile, rfl⟩ := exists_given_of_base hbase
    have hpolicy := PolicySettings.validate_policy hfit
    refine ⟨file, hfile, Option.getD_or.symm, Option.getD_or.symm, Option.getD_or.symm,
      Option.getD_or.symm, Option.getD_or.symm, Option.getD_or.symm, Option.getD_or.symm,
      fun xs hxs x => ?_, fun xs hxs x => ?_, hfit, hpolicy, fun limits hlimits queue =>
        ⟨⟨_, Relay.onSocket_of_validate hlimits hpolicy queue⟩,
          Relay.bind_ne_config hlimits hpolicy queue⟩⟩
    · unfold Flags.override
      dsimp only
      rw [hxs]
      exact IndexSet.mem_ofList
    · unfold Flags.override
      dsimp only
      rw [hxs]
      exact IndexSet.mem_ofList
  · have hbase : baseSettings { inv with flags := { inv.flags with targets, exempt } } read =
        inv.baseSettings read := rfl
    unfold policySettings
    rw [hbase]
    dsimp only
    simp only [override_of_sameMembers htargets hexempt]
  · have hbase : inv.baseSettings read = .ok .reference := by
      unfold baseSettings
      rw [hnone]
    rw [policySettings_of_base hbase] at h
    cases hfit : (inv.flags.override .reference).validate with
    | ok _ =>
      rw [hfit] at h
      cases h
    | error cause =>
      rw [hfit] at h
      obtain rfl := Except.error.inj h
      exact ⟨rfl, rfl⟩

/-- A file gives the end of the window and the offset, and flags give the targets, with repetitions,
and another offset; all other fields are those of the reference settings. -/
theorem Invocation.policySettings_sources_of_three :
    let inv : Invocation :=
      ⟨"9000:127.0.0.1:9001",
        { config := some "policy.json", targets := some [5, 3, 5], offset := some 7 }⟩
    let read : FileReader := fun _ => .ok
      "\x7b\"static_drop\":\x7b\"kappa\":20\x7d,\"adaptive\":\x7b\"target_offset\":9\x7d\x7d"
    let settings : PolicySettings :=
      { PolicySettings.reference with
        indexRule := ⟨20, .ofList [3, 5], .ofList [10, 11, 12]⟩, blockRule := ⟨500, 453, 7⟩ }
    inv.policySettings read = .ok settings ∧
      (∀ x, x ∈ settings.indexRule.targets ↔ x ∈ [5, 3, 5]) ∧
      LossPolicy.validate settings.policy = .ok () := by
  intro inv read settings
  have hdoc : Json.document PolicySettings.record.read
      "\x7b\"static_drop\":\x7b\"kappa\":20\x7d,\"adaptive\":\x7b\"target_offset\":9\x7d\x7d" =
      .ok { PolicySettings.reference with
        indexRule := { IndexRule.reference with windowEnd := 20 }
        blockRule := ⟨500, 453, 9⟩ } := by rfl
  have hpath : inv.flags.config = some "policy.json" := rfl
  have h : inv.policySettings read = .ok settings :=
    (policySettings_of_document inv read hpath rfl hdoc settings).mpr ⟨rfl, by decide, rfl⟩
  obtain ⟨file, -, -, -, -, -, -, -, -, htargets, -, -, hpolicy, -⟩ :=
    (policySettings_sources inv read).1 settings h
  exact ⟨h, htargets _ rfl, hpolicy⟩

/-! ### Values that a flag replaces -/

/-- Two settings agree on every field that no flag replaces. -/
structure Flags.AgreeOff (f : Flags) (a b : PolicySettings) : Prop where
  kind : f.policy = .none → a.kind = b.kind
  windowEnd : f.windowEnd = .none → a.indexRule.windowEnd = b.indexRule.windowEnd
  targets : f.targets = .none → a.indexRule.targets = b.indexRule.targets
  exempt : f.exempt = .none → a.indexRule.exempt = b.indexRule.exempt
  silenceMs : f.silenceMs = .none → a.blockRule.silenceMs = b.blockRule.silenceMs
  tunedSize : f.tunedSize = .none → a.blockRule.tunedSize = b.blockRule.tunedSize
  offset : f.offset = .none → a.blockRule.offset = b.blockRule.offset

theorem getD_congr {α : Type} {given : Option α} {a b : α} (h : given = none → a = b) :
    given.getD a = given.getD b := by
  cases given with
  | none => exact h rfl
  | some _ => rfl

theorem Flags.AgreeOff.override_eq {f : Flags} {a b : PolicySettings} (h : f.AgreeOff a b) :
    f.override a = f.override b := by
  have htargets := getD_congr fun hnone =>
    h.targets (Option.map_eq_none_iff (f := IndexSet.ofList).mp hnone)
  have hexempt := getD_congr fun hnone =>
    h.exempt (Option.map_eq_none_iff (f := IndexSet.ofList).mp hnone)
  unfold Flags.override
  rw [getD_congr h.kind, getD_congr h.windowEnd, htargets, hexempt, getD_congr h.silenceMs,
    getD_congr h.tunedSize, getD_congr h.offset]

/-- Two outcomes are the same value, or both are errors. -/
def SameOutcome {ε α : Type} (x y : Except ε α) : Prop := ∀ a, x = .ok a ↔ y = .ok a

namespace Invocation

/-- **When a value that a flag replaces matters.**  Two policy files are well formed and well typed,
and agree on every field that no flag replaces.  They have the same outcome exactly if both are fit
to run as they are or neither is, or if the settings with the flags applied are not fit to run
anyway. -/
theorem sameOutcome_iff_fit (inv : Invocation) (read read' : FileReader)
    {path text text' : String} {a a' : PolicySettings} (hpath : inv.flags.config = some path)
    (hread : read path = .ok text) (hread' : read' path = .ok text')
    (hdoc : Json.document PolicySettings.record.read text = .ok a)
    (hdoc' : Json.document PolicySettings.record.read text' = .ok a')
    (hagree : inv.flags.AgreeOff a a') :
    SameOutcome (inv.policySettings read) (inv.policySettings read') ↔
      ((a.validate = .ok () ↔ a'.validate = .ok ()) ∨
        (inv.flags.override a).validate ≠ .ok ()) := by
  have hok := policySettings_of_document inv read hpath hread hdoc
  have hok' := policySettings_of_document inv read' hpath hread' hdoc'
  rw [← hagree.override_eq] at hok'
  unfold SameOutcome
  simp only [hok, hok']
  constructor
  · intro hsame
    by_cases hfit : (inv.flags.override a).validate = .ok ()
    · left
      have hmerged := hsame (inv.flags.override a)
      simpa [hfit] using hmerged
    · exact Or.inr hfit
  · rintro (hiff | hunfit) settings
    · rw [hiff]
    · constructor
      · rintro ⟨-, rfl, hfit⟩
        exact absurd hfit hunfit
      · rintro ⟨-, rfl, hfit⟩
        exact absurd hfit hunfit

/-- A flag gives the offset, so two files that give different ones have the same outcome. -/
theorem sameOutcome_iff_fit_of_two_offsets :
    let inv : Invocation :=
      ⟨"9000:127.0.0.1:9001", { config := some "policy.json", offset := some 1 }⟩
    SameOutcome
      (inv.policySettings fun _ => .ok "\x7b\"adaptive\":\x7b\"target_offset\":2\x7d\x7d")
      (inv.policySettings fun _ => .ok "\x7b\"adaptive\":\x7b\"target_offset\":3\x7d\x7d") := by
  intro inv
  have hpath : inv.flags.config = some "policy.json" := rfl
  have htwo : Json.document PolicySettings.record.read
      "\x7b\"adaptive\":\x7b\"target_offset\":2\x7d\x7d" =
      .ok { PolicySettings.reference with blockRule := ⟨500, 453, 2⟩ } := by rfl
  have hthree : Json.document PolicySettings.record.read
      "\x7b\"adaptive\":\x7b\"target_offset\":3\x7d\x7d" =
      .ok { PolicySettings.reference with blockRule := ⟨500, 453, 3⟩ } := by rfl
  have hagree : inv.flags.AgreeOff
      { PolicySettings.reference with blockRule := ⟨500, 453, 2⟩ }
      { PolicySettings.reference with blockRule := ⟨500, 453, 3⟩ } :=
    ⟨fun _ => rfl, fun _ => rfl, fun _ => rfl, fun _ => rfl, fun _ => rfl, fun _ => rfl, nofun⟩
  refine (sameOutcome_iff_fit inv (fun _ => .ok _) (fun _ => .ok _) hpath rfl rfl htwo hthree
    hagree).mpr (Or.inl ?_)
  exact ⟨fun _ => rfl, fun _ => rfl⟩

/-- The offset that a flag replaces decides the outcome: a file whose own offset lies outside the
block is refused, and an empty file, which agrees with it on everything else, is not. -/
theorem replaced_offset_decides :
    let inv : Invocation :=
      ⟨"9000:127.0.0.1:9001", { config := some "bad.json", offset := some 1 }⟩
    let bad : PolicySettings := { PolicySettings.reference with blockRule := ⟨500, 453, 500⟩ }
    Json.document PolicySettings.record.read
      "\x7b\"adaptive\":\x7b\"target_offset\":500\x7d\x7d" = .ok bad ∧
    Json.document PolicySettings.record.read "\x7b\x7d" = .ok .reference ∧
    inv.flags.AgreeOff bad .reference ∧
    ¬ SameOutcome
      (inv.policySettings fun _ => .ok "\x7b\"adaptive\":\x7b\"target_offset\":500\x7d\x7d")
      (inv.policySettings fun _ => .ok "\x7b\x7d") := by
  intro inv bad
  have hpath : inv.flags.config = some "bad.json" := rfl
  have hbad : Json.document PolicySettings.record.read
      "\x7b\"adaptive\":\x7b\"target_offset\":500\x7d\x7d" = .ok bad := by rfl
  have hempty : Json.document PolicySettings.record.read "\x7b\x7d" = .ok .reference := by rfl
  refine ⟨hbad, hempty, ⟨fun _ => rfl, fun _ => rfl, fun _ => rfl, fun _ => rfl, fun _ => rfl,
    fun _ => rfl, nofun⟩, fun hsame => ?_⟩
  have hmerged : inv.policySettings (fun _ => .ok "\x7b\x7d") =
      .ok (inv.flags.override .reference) :=
    (policySettings_of_document inv (fun _ => .ok _) hpath rfl hempty _).mpr ⟨rfl, rfl, rfl⟩
  obtain ⟨hfit, -, -⟩ := (policySettings_of_document inv (fun _ => .ok _) hpath rfl hbad _).mp
    ((hsame (inv.flags.override .reference)).mpr hmerged)
  cases hfit

end Invocation

end LossRelay
