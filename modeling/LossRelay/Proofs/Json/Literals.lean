import LossRelay.Proofs.Json.Reading

/-!
# Literals

The grammar of literals, beside the readers.  A string may be written with escapes: `Spelled`
relates characters to the texts that stand for them, and every such text is read back
(`literal_of_spelled`).  A literal that is passed over only has to have the right shape: `Shaped`
for strings, where code units need not pair up, and `NumberText` for numbers of any size.
-/

namespace LossRelay.Json

/-! ### Strings -/

/-- Four hexadecimal digits, and the code unit that they stand for. -/
inductive UnitText : Nat → List Char → Prop
  | mk {a b c d : Char} {w x y z : Nat} (ha : hexDigit? a = some w) (hb : hexDigit? b = some x)
    (hc : hexDigit? c = some y) (hd : hexDigit? d = some z) :
    UnitText (((w * 16 + x) * 16 + y) * 16 + z) [a, b, c, d]

/-- Characters and a text that stands for them inside a string literal: a plain character stands for
itself, a letter behind a backslash for one of eight characters, and code units in hexadecimal
digits for a character of the basic plane, or in pairs for one beyond it. -/
inductive Spelled : List Char → List Char → Prop
  | nil : Spelled [] []
  | plain {c : Char} {cs text : List Char} (hc : isPlain c = true) (h : Spelled cs text) :
    Spelled (c :: cs) (c :: text)
  | letter {l c : Char} {cs text : List Char} (hl : letterEscape? l = some c)
    (h : Spelled cs text) : Spelled (c :: cs) ('\\' :: l :: text)
  | unit {n : Nat} {digits cs text : List Char} (hn : UnitText n digits)
    (hlead : isLeading n = false) (htrail : isTrailing n = false) (h : Spelled cs text) :
    Spelled (Char.ofNat n :: cs) ('\\' :: 'u' :: (digits ++ text))
  | pair {n m : Nat} {digits digits' cs text : List Char} (hn : UnitText n digits)
    (hm : UnitText m digits') (hlead : isLeading n = true) (htrail : isTrailing m = true)
    (h : Spelled cs text) :
    Spelled (pairChar n m :: cs) ('\\' :: 'u' :: (digits ++ '\\' :: 'u' :: (digits' ++ text)))

/-- A text after an opening quote, the closing quote included, that stands for a string. -/
def StringText (s : String) (text : List Char) : Prop :=
  ∃ body, Spelled s.toList body ∧ text = body ++ ['"']

theorem Spelled.of_plain {cs : List Char} (h : cs.all isPlain = true) : Spelled cs cs := by
  induction cs with
  | nil => exact .nil
  | cons c cs ih =>
    rw [List.all_cons, Bool.and_eq_true] at h
    exact .plain h.1 (ih h.2)

theorem stringText_plain {s : String} (h : s.toList.all isPlain = true) :
    StringText s (s.toList ++ ['"']) :=
  ⟨_, .of_plain h, rfl⟩

theorem hexDigit?_digitChar : ∀ k < 16, hexDigit? k.digitChar = some k := by decide

theorem unitText_digits {n : Nat} (hn : n < 65536) :
    UnitText n [(n / 4096).digitChar, (n / 256 % 16).digitChar, (n / 16 % 16).digitChar,
      (n % 16).digitChar] := by
  have hunit := UnitText.mk (hexDigit?_digitChar (n / 4096) (by omega))
    (hexDigit?_digitChar (n / 256 % 16) (by omega)) (hexDigit?_digitChar (n / 16 % 16) (by omega))
    (hexDigit?_digitChar (n % 16) (by omega))
  have hvalue : ((n / 4096 * 16 + n / 256 % 16) * 16 + n / 16 % 16) * 16 + n % 16 = n := by omega
  rwa [hvalue] at hunit

theorem exists_spelled (cs : List Char) : ∃ text, Spelled cs text := by
  induction cs with
  | nil => exact ⟨[], .nil⟩
  | cons c cs ih =>
    obtain ⟨text, htext⟩ := ih
    by_cases hplain : isPlain c = true
    · exact ⟨_, .plain hplain htext⟩
    by_cases hquote : c = '"'
    · subst hquote
      exact ⟨'\\' :: '"' :: text, .letter rfl htext⟩
    by_cases hslash : c = '\\'
    · subst hslash
      exact ⟨'\\' :: '\\' :: text, .letter rfl htext⟩
    -- a control character has no letter in general, but a code unit
    have hcontrol : c.toNat < 0x20 := by simpa [isPlain, hquote, hslash] using hplain
    have hlead : isLeading c.toNat = false := by
      rw [isLeading, Bool.and_eq_false_iff, decide_eq_false_iff_not]
      omega
    have htrail : isTrailing c.toNat = false := by
      rw [isTrailing, Bool.and_eq_false_iff, decide_eq_false_iff_not]
      omega
    have hunit := Spelled.unit (unitText_digits (by omega)) hlead htrail htext
    rw [Char.ofNat_toNat] at hunit
    exact ⟨_, hunit⟩

theorem exists_stringText (s : String) : ∃ text, StringText s text := by
  obtain ⟨body, hbody⟩ := exists_spelled s.toList
  exact ⟨_, body, hbody, rfl⟩

theorem codeUnit_text {n : Nat} {digits : List Char} (h : UnitText n digits) (s : List Char) :
    codeUnit (digits ++ s) = .ok (n, s) := by
  obtain ⟨ha, hb, hc, hd⟩ := h
  unfold codeUnit
  dsimp only [List.cons_append, List.nil_append]
  rw [ha, hb, hc, hd]

theorem escape_letter {l c : Char} (h : letterEscape? l = some c) (s : List Char) :
    escape (l :: s) = .ok (c, s) := by
  unfold escape
  split
  · contradiction
  · rename_i heq
    obtain ⟨rfl, -⟩ := List.cons.inj heq
    cases h
  · rename_i heq
    obtain ⟨rfl, rfl⟩ := List.cons.inj heq
    rw [h]

theorem escape_unit {n : Nat} {digits : List Char} (hn : UnitText n digits)
    (hlead : isLeading n = false) (htrail : isTrailing n = false) (s : List Char) :
    escape ('u' :: (digits ++ s)) = .ok (Char.ofNat n, s) := by
  change unitEscape (digits ++ s) = _
  unfold unitEscape
  rw [codeUnit_text hn, ok_bind]
  dsimp only
  rw [htrail, hlead]
  rfl

theorem escape_pair {n m : Nat} {digits digits' : List Char} (hn : UnitText n digits)
    (hm : UnitText m digits') (hlead : isLeading n = true) (htrail : isTrailing m = true)
    (s : List Char) :
    escape ('u' :: (digits ++ '\\' :: 'u' :: (digits' ++ s))) = .ok (pairChar n m, s) := by
  have hnot : isTrailing n = false := by
    unfold isLeading at hlead
    unfold isTrailing
    simp only [Bool.and_eq_true, decide_eq_true_eq] at hlead
    rw [Bool.and_eq_false_iff, decide_eq_false_iff_not]
    left
    omega
  have htail : trailingUnit ('\\' :: 'u' :: (digits' ++ s)) = .ok (m, s) := by
    change (codeUnit (digits' ++ s) >>= _) = _
    rw [codeUnit_text hm, ok_bind]
    dsimp only
    rw [if_pos htrail]
  change unitEscape (digits ++ '\\' :: 'u' :: (digits' ++ s)) = _
  unfold unitEscape
  rw [codeUnit_text hn, ok_bind]
  dsimp only
  rw [hnot, hlead, htail]
  rfl

theorem stringChars_backslash (fuel : Nat) (s : List Char) :
    stringChars (fuel + 1) ('\\' :: s) = (do
      let (d, t) ← escape s
      let (ds, t) ← stringChars fuel t
      .ok (d :: ds, t)) := rfl

theorem stringChars_of_plain {c : Char} (hc : isPlain c = true) {fuel : Nat} {s cs rest : List Char}
    (h : stringChars fuel s = .ok (cs, rest)) :
    stringChars (fuel + 1) (c :: s) = .ok (c :: cs, rest) := by
  rw [stringChars_plain_cons hc, h]
  rfl

theorem stringChars_of_escape {c : Char} {t s : List Char} (ht : escape t = .ok (c, s))
    {fuel : Nat} {cs rest : List Char} (h : stringChars fuel s = .ok (cs, rest)) :
    stringChars (fuel + 1) ('\\' :: t) = .ok (c :: cs, rest) := by
  rw [stringChars_backslash, ht, ok_bind]
  dsimp only
  rw [h]
  rfl

theorem stringChars_spelled {cs text : List Char} (h : Spelled cs text) {fuel : Nat}
    (hfuel : cs.length < fuel) (rest : List Char) :
    stringChars fuel (text ++ '"' :: rest) = .ok (cs, rest) := by
  induction h generalizing fuel with
  | nil =>
    obtain ⟨fuel, rfl⟩ := Nat.exists_eq_add_one_of_ne_zero (Nat.ne_zero_of_lt hfuel)
    rfl
  | plain hc _ ih =>
    obtain ⟨fuel, rfl⟩ := Nat.exists_eq_add_one_of_ne_zero (Nat.ne_zero_of_lt hfuel)
    exact stringChars_of_plain hc (ih (Nat.lt_of_succ_lt_succ hfuel))
  | letter hl _ ih =>
    obtain ⟨fuel, rfl⟩ := Nat.exists_eq_add_one_of_ne_zero (Nat.ne_zero_of_lt hfuel)
    exact stringChars_of_escape (escape_letter hl _) (ih (Nat.lt_of_succ_lt_succ hfuel))
  | unit hn hlead htrail _ ih =>
    obtain ⟨fuel, rfl⟩ := Nat.exists_eq_add_one_of_ne_zero (Nat.ne_zero_of_lt hfuel)
    simp only [List.cons_append, List.append_assoc]
    exact stringChars_of_escape (escape_unit hn hlead htrail _)
      (ih (Nat.lt_of_succ_lt_succ hfuel))
  | pair hn hm hlead htrail _ ih =>
    obtain ⟨fuel, rfl⟩ := Nat.exists_eq_add_one_of_ne_zero (Nat.ne_zero_of_lt hfuel)
    simp only [List.cons_append, List.append_assoc]
    exact stringChars_of_escape (escape_pair hn hm hlead htrail _)
      (ih (Nat.lt_of_succ_lt_succ hfuel))

theorem Spelled.length_le {cs text : List Char} (h : Spelled cs text) :
    cs.length ≤ text.length := by
  induction h with
  | nil => exact Nat.le_refl 0
  | plain _ _ ih => exact Nat.succ_le_succ ih
  | letter _ _ ih => simp only [List.length_cons]; omega
  | unit _ _ _ _ ih => simp only [List.length_cons, List.length_append]; omega
  | pair _ _ _ _ _ ih => simp only [List.length_cons, List.length_append]; omega

/-- **A string is read back** from every text that stands for it. -/
theorem literal_of_spelled {s : String} {text : List Char} (h : StringText s text) :
    Literal text s := by
  obtain ⟨body, hbody, rfl⟩ := h
  intro rest
  have hfuel : s.toList.length < (body ++ '"' :: rest).length + 1 := by
    have hle := hbody.length_le
    rw [List.length_append]
    omega
  unfold string
  rw [List.append_assoc, List.singleton_append, stringChars_spelled hbody hfuel, ok_bind]
  exact congrArg (fun t => Except.ok (t, rest)) String.ofList_toList

theorem StringText.unique {s s' : String} {text : List Char} (h : StringText s text)
    (h' : StringText s' text) : s = s' := by
  have hboth := (literal_of_spelled h []).symm.trans (literal_of_spelled h' [])
  exact (Prod.mk.inj (Except.ok.inj hboth)).1

/-! ### Strings that are passed over -/

/-- The inside of a string literal by its shape: plain characters and escapes. -/
inductive Shaped : List Char → Prop
  | nil : Shaped []
  | plain {c : Char} {text : List Char} (hc : isPlain c = true) (h : Shaped text) :
    Shaped (c :: text)
  | letter {l : Char} {text : List Char} (hl : (letterEscape? l).isSome) (h : Shaped text) :
    Shaped ('\\' :: l :: text)
  | unit {n : Nat} {digits text : List Char} (hn : UnitText n digits) (h : Shaped text) :
    Shaped ('\\' :: 'u' :: (digits ++ text))

theorem Spelled.shaped {cs text : List Char} (h : Spelled cs text) : Shaped text := by
  induction h with
  | nil => exact .nil
  | plain hc _ ih => exact .plain hc ih
  | letter hl _ ih => exact .letter (Option.isSome_of_eq_some hl) ih
  | unit hn _ _ _ ih => exact .unit hn ih
  | pair hn hm _ _ _ ih => exact .unit hn (.unit hm ih)

theorem skipEscape_letter {l : Char} (h : (letterEscape? l).isSome) (s : List Char) :
    skipEscape (l :: s) = .ok s := by
  unfold skipEscape
  split
  · contradiction
  · rename_i heq
    obtain ⟨rfl, -⟩ := List.cons.inj heq
    cases h
  · rename_i heq
    obtain ⟨rfl, rfl⟩ := List.cons.inj heq
    rw [if_pos h]

theorem skipChars_of_escape {t s : List Char} (ht : skipEscape t = .ok s) (fuel : Nat) :
    skipChars (fuel + 1) ('\\' :: t) = skipChars fuel s := by
  rw [skipChars, if_neg (by decide), if_pos rfl, ht]
  rfl

theorem skipChars_shaped {text : List Char} (h : Shaped text) {fuel : Nat}
    (hfuel : text.length < fuel) (rest : List Char) :
    skipChars fuel (text ++ '"' :: rest) = .ok rest := by
  induction h generalizing fuel with
  | nil =>
    obtain ⟨fuel, rfl⟩ := Nat.exists_eq_add_one_of_ne_zero (Nat.ne_zero_of_lt hfuel)
    rfl
  | plain hc _ ih =>
    obtain ⟨fuel, rfl⟩ := Nat.exists_eq_add_one_of_ne_zero (Nat.ne_zero_of_lt hfuel)
    simp only [isPlain, Bool.and_eq_true, bne_iff_ne, decide_eq_true_eq] at hc
    rw [List.cons_append, skipChars, if_neg hc.1.1, if_neg hc.1.2,
      if_neg (Nat.not_lt.mpr hc.2)]
    exact ih (Nat.lt_of_succ_lt_succ hfuel)
  | letter hl _ ih =>
    obtain ⟨fuel, rfl⟩ := Nat.exists_eq_add_one_of_ne_zero (Nat.ne_zero_of_lt hfuel)
    rw [List.cons_append, List.cons_append, skipChars_of_escape (skipEscape_letter hl _)]
    simp only [List.length_cons] at hfuel
    exact ih (by omega)
  | @unit n digits text hn _ ih =>
    obtain ⟨fuel, rfl⟩ := Nat.exists_eq_add_one_of_ne_zero (Nat.ne_zero_of_lt hfuel)
    have hescape (s : List Char) : skipEscape ('u' :: (digits ++ s)) = .ok s := by
      change (codeUnit (digits ++ s) >>= _) = _
      rw [codeUnit_text hn]
      rfl
    rw [List.cons_append, List.cons_append, List.append_assoc, skipChars_of_escape (hescape _)]
    simp only [List.length_cons, List.length_append] at hfuel
    exact ih (by omega)

theorem skipString_shaped {text : List Char} (h : Shaped text) (rest : List Char) :
    skipString (text ++ '"' :: rest) = .ok rest := by
  refine skipChars_shaped h ?_ rest
  rw [List.length_append]
  omega

/-! ### Numbers that are passed over -/

def DigitsText (text : List Char) : Prop := text ≠ [] ∧ ∀ c ∈ text, c.isDigit = true

/-- The digits before the point: one zero, or digits of which the first is no zero. -/
def WholeText (text : List Char) : Prop :=
  text = ['0'] ∨ DigitsText text ∧ ∀ c ∈ text.head?, c ≠ '0'

/-- A fraction, which may be missing. -/
def FractionText (text : List Char) : Prop := text = [] ∨ ∃ ds, DigitsText ds ∧ text = '.' :: ds

/-- An exponent, which may be missing. -/
def ExponentText (text : List Char) : Prop :=
  text = [] ∨ ∃ e sign ds, (e = 'e' ∨ e = 'E') ∧ (sign = [] ∨ sign = ['+'] ∨ sign = ['-']) ∧
    DigitsText ds ∧ text = e :: (sign ++ ds)

/-- A number literal without its minus sign. -/
def NumberText (text : List Char) : Prop :=
  ∃ whole frac e, WholeText whole ∧ FractionText frac ∧ ExponentText e ∧
    text = whole ++ (frac ++ e)

def NoDigit (s : List Char) : Prop := ∀ c ∈ s.head?, c.isDigit = false

theorem Delimited.noDigit {rest : List Char} (h : Delimited rest) : NoDigit rest :=
  fun c hc => (h.number c hc).1

theorem ExponentText.noDigit {e rest : List Char} (he : ExponentText e) (h : NoDigit rest) :
    NoDigit (e ++ rest) := by
  rcases he with rfl | ⟨e, sign, ds, rfl | rfl, -, -, rfl⟩
  · exact h
  · rintro c ⟨⟩
    rfl
  · rintro c ⟨⟩
    rfl

theorem FractionText.noDigit {frac rest : List Char} (hf : FractionText frac) (h : NoDigit rest) :
    NoDigit (frac ++ rest) := by
  rcases hf with rfl | ⟨ds, -, rfl⟩
  · exact h
  · rintro c ⟨⟩
    rfl

theorem skipDigits_text {ds s : List Char} (hds : DigitsText ds) (hs : NoDigit s) :
    skipDigits (ds ++ s) = .ok s := by
  unfold skipDigits
  rw [digitRun_text hds.2 hs]
  split
  · rename_i heq
    exact absurd (congrArg Prod.fst heq) hds.1
  · rename_i heq
    exact congrArg Except.ok (congrArg Prod.snd heq).symm

/-- The sign of an exponent does not depend on what follows its digits. -/
theorem exponentSign_text {sign ds : List Char}
    (hsign : sign = [] ∨ sign = ['+'] ∨ sign = ['-']) (hds : DigitsText ds) :
    ∃ negative, ∀ s, exponentSign (sign ++ (ds ++ s)) = (negative, ds ++ s) := by
  rcases hsign with rfl | rfl | rfl
  · -- without a sign a digit comes first
    obtain ⟨d, ds, rfl⟩ := List.exists_cons_of_ne_nil hds.1
    have hd := hds.2 d (List.mem_cons_self ..)
    refine ⟨false, fun s => ?_⟩
    unfold exponentSign
    split <;> simp_all
  · exact ⟨false, fun s => rfl⟩
  · exact ⟨true, fun s => rfl⟩

theorem skipExponent_text {e rest : List Char} (he : ExponentText e) (hrest : Delimited rest) :
    skipExponent (e ++ rest) = .ok rest := by
  rcases he with rfl | ⟨e, sign, ds, hletter, hsign, hds, rfl⟩
  · rw [List.nil_append]
    cases rest with
    | nil => rfl
    | cons c rest =>
      obtain ⟨-, -, he, hE⟩ := hrest.number c rfl
      exact if_neg (not_or.mpr ⟨he, hE⟩)
  · obtain ⟨negative, hafter⟩ := exponentSign_text hsign hds
    unfold skipExponent
    rw [List.cons_append, List.append_assoc]
    dsimp only
    rw [if_pos hletter, hafter]
    exact skipDigits_text hds hrest.noDigit

/-- What is passed over behind the digits before the point. -/
def skipPlaces (s : List Char) : Except Error (List Char) :=
  match s with
  | '.' :: t => do
    let r ← skipDigits t
    skipExponent r
  | _ => skipExponent s

theorem skipPlaces_text {frac e rest : List Char} (hf : FractionText frac) (he : ExponentText e)
    (hrest : Delimited rest) : skipPlaces (frac ++ (e ++ rest)) = .ok rest := by
  have hexponent := skipExponent_text he hrest
  rcases hf with rfl | ⟨ds, hds, rfl⟩
  · -- no point follows
    unfold skipPlaces
    split
    · rename_i heq
      rcases he with rfl | ⟨_, _, _, rfl | rfl, -, -, rfl⟩
      · obtain rfl : rest = '.' :: _ := heq
        exact absurd rfl (hrest.number '.' rfl).2.1
      · cases heq
      · cases heq
    · exact hexponent
  · change (skipDigits (ds ++ (e ++ rest)) >>= _) = _
    rw [skipDigits_text hds (he.noDigit hrest.noDigit)]
    exact hexponent

theorem skipNumber_zero {s : List Char} (hs : NoDigit s) :
    skipNumber ('0' :: s) = skipPlaces s := by
  cases s with
  | nil => rfl
  | cons d s =>
    change (if d.isDigit then _ else skipPlaces (d :: s)) = _
    rw [hs d rfl]
    rfl

theorem skipNumber_digits {c : Char} (hc : c ≠ '0') (s : List Char) :
    skipNumber (c :: s) = skipDigits (c :: s) >>= skipPlaces := by
  unfold skipNumber
  split
  · rename_i heq
    exact absurd (List.cons.inj heq).1 hc
  · rfl

/-- **A number literal is passed over.** -/
theorem skipNumber_text {text rest : List Char} (h : NumberText text) (hrest : Delimited rest) :
    skipNumber (text ++ rest) = .ok rest := by
  obtain ⟨whole, frac, e, hwhole, hfrac, he, rfl⟩ := h
  have hplaces := skipPlaces_text hfrac he hrest
  have hnodigit := hfrac.noDigit (he.noDigit hrest.noDigit)
  rw [List.append_assoc, List.append_assoc]
  rcases hwhole with rfl | ⟨hds, hzero⟩
  · exact (skipNumber_zero hnodigit).trans hplaces
  · obtain ⟨c, cs, rfl⟩ := List.exists_cons_of_ne_nil hds.1
    have hskip := skipDigits_text hds hnodigit
    rw [List.cons_append] at hskip ⊢
    rw [skipNumber_digits (hzero c rfl), hskip]
    exact hplaces

end LossRelay.Json
