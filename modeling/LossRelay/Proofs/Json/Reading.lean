import LossRelay.Json.Typed
import Mathlib.Data.List.Basic

/-!
# What a reader reads

`Reads read text a` says that a reader takes exactly the given text off the front of a document and
gives `a`, whatever follows, as long as a value can end there.  Here this is shown for the values
without parts: numbers written without leading zeros (`natural_reads`), string literals and the
names of a choice.
-/

namespace LossRelay.Json

theorem ok_bind {α β : Type} (a : α) (f : α → Except Error β) : (.ok a >>= f) = f a := rfl

/-! ### Blanks -/

def Blanks (w : List Char) : Prop := ∀ c ∈ w, isBlank c = true

theorem blanks_nil : Blanks [] := nofun

theorem isBlank_iff {c : Char} :
    isBlank c = true ↔ c = ' ' ∨ c = '\n' ∨ c = '\t' ∨ c = '\r' := by
  simp [isBlank, or_assoc]

theorem skipBlanks_blanks {w : List Char} (hw : Blanks w) (s : List Char) :
    skipBlanks (w ++ s) = skipBlanks s := List.dropWhile_append_of_pos hw

theorem skipBlanks_cons {c : Char} (hc : isBlank c = false) (s : List Char) :
    skipBlanks (c :: s) = c :: s := List.dropWhile_cons_of_neg (by simp [hc])

theorem skipBlanks_append {w : List Char} (hw : Blanks w) {c : Char} (hc : isBlank c = false)
    (s : List Char) : skipBlanks (w ++ c :: s) = c :: s := by
  rw [skipBlanks_blanks hw, skipBlanks_cons hc]

/-! ### Reading -/

/-- A value can end in front of a text: nothing follows, or a blank, a comma or a closing bracket. -/
def Delimited (rest : List Char) : Prop :=
  ∀ c ∈ rest.head?, isBlank c = true ∨ c = ',' ∨ c = ']' ∨ c = '\x7d'

/-- The reader takes exactly `text` off the front of a document and gives `a`. -/
def Reads {α : Type} (read : Reader α) (text : List Char) (a : α) : Prop :=
  ∀ rest, Delimited rest → read (text ++ rest) = .ok (a, rest)

/-- The reader passes over blanks in front of a value. -/
def Lenient {α : Type} (read : Reader α) : Prop :=
  ∀ w s, Blanks w → read (w ++ s) = read s

variable {α β : Type}

theorem Reads.blanks {read : Reader α} {text : List Char} {a : α} (h : Reads read text a)
    (hread : Lenient read) {w : List Char} (hw : Blanks w) : Reads read (w ++ text) a := by
  intro rest hrest
  rw [List.append_assoc, hread w _ hw]
  exact h rest hrest

theorem Reads.map {read : Reader α} {text : List Char} {a : α} (h : Reads read text a)
    (f : α → β) : Reads (fun s => do let (a, r) ← read s; .ok (f a, r)) text (f a) := by
  intro rest hrest
  dsimp only
  rw [h rest hrest]
  rfl

theorem document_of_reads {read : Reader α} {text : List Char} {a : α} (h : Reads read text a) :
    document read (String.ofList text) = .ok a := by
  have hread := h [] nofun
  rw [List.append_nil] at hread
  unfold document
  rw [String.toList_ofList, hread]
  rfl

theorem document_of_blanks {read : Reader α} {text : String} {w t w' : List Char} {a : α}
    (h : Reads read t a) (hread : Lenient read) (hw : Blanks w) (hw' : Blanks w')
    (htext : text.toList = w ++ (t ++ w')) : document read text = .ok a := by
  have hend : skipBlanks w' = [] := by
    simpa [skipBlanks] using skipBlanks_blanks hw' []
  have hrest : Delimited w' := fun c hc => Or.inl (hw' c (List.mem_of_mem_head? hc))
  unfold document
  rw [htext, hread w _ hw, h w' hrest, ok_bind]
  dsimp only
  rw [hend]

/-! ### String literals -/

/-- A character that stands for itself in a string literal. -/
def isPlain (c : Char) : Bool := c != '"' && c != '\\' && decide (0x20 ≤ c.toNat)

/-- A text after an opening quote, the closing quote included, is the literal of a string. -/
def Literal (text : List Char) (s : String) : Prop :=
  ∀ rest, string (text ++ rest) = .ok (s, rest)

theorem stringChars_plain_cons {c : Char} (hc : isPlain c = true) (fuel : Nat) (s : List Char) :
    stringChars (fuel + 1) (c :: s) = (do
      let (ds, t) ← stringChars fuel s
      .ok (c :: ds, t)) := by
  simp only [isPlain, Bool.and_eq_true, bne_iff_ne, decide_eq_true_eq] at hc
  rw [stringChars]
  dsimp only
  rw [if_neg hc.1.1, if_neg hc.1.2, if_neg (Nat.not_lt.mpr hc.2)]

theorem stringChars_plain {cs : List Char} (h : ∀ c ∈ cs, isPlain c = true) (rest : List Char)
    {fuel : Nat} (hfuel : cs.length < fuel) :
    stringChars fuel (cs ++ '"' :: rest) = .ok (cs, rest) := by
  induction cs generalizing fuel with
  | nil =>
    obtain ⟨fuel, rfl⟩ := Nat.exists_eq_add_one_of_ne_zero (Nat.ne_of_gt hfuel)
    rfl
  | cons c cs ih =>
    obtain ⟨fuel, rfl⟩ := Nat.exists_eq_add_one_of_ne_zero (Nat.ne_zero_of_lt hfuel)
    have hrest := ih (fun d hd => h d (List.mem_cons_of_mem _ hd)) (Nat.lt_of_succ_lt_succ hfuel)
    rw [List.cons_append, stringChars_plain_cons (h c (List.mem_cons_self ..)), hrest]
    rfl

theorem literal_plain {s : String} (h : s.toList.all isPlain = true) :
    Literal (s.toList ++ ['"']) s := by
  intro rest
  have hfuel : s.toList.length < (s.toList ++ '"' :: rest).length + 1 := by
    rw [List.length_append]
    omega
  unfold string
  rw [List.append_assoc, List.singleton_append,
    stringChars_plain (List.all_eq_true.mp h) rest hfuel]
  exact congrArg (fun t => Except.ok (t, rest)) String.ofList_toList

theorem Choice.lenient (choice : Choice α) : Lenient choice.read := by
  intro w s hw
  unfold Choice.read
  rw [skipBlanks_blanks hw]

theorem Choice.reads {choice : Choice α} {text : List Char} {name : String} {a : α}
    (htext : Literal text name) (hpick : choice.pick name = .ok a) :
    Reads choice.read ('"' :: text) a := by
  intro rest _
  unfold Choice.read
  rw [List.cons_append, skipBlanks_cons (by decide)]
  change (string (text ++ rest) >>= fun p => choice.pick p.1 >>= fun a => .ok (a, p.2)) = _
  simp only [htext rest, ok_bind, hpick]

/-! ### Numbers -/

theorem isBlank_of_isDigit {c : Char} (hc : c.isDigit = true) : isBlank c = false := by
  rw [← Bool.not_eq_true]
  intro hblank
  rcases isBlank_iff.mp hblank with rfl | rfl | rfl | rfl <;> cases hc

/-- No digit, point or exponent goes on after a value. -/
theorem Delimited.number {rest : List Char} (h : Delimited rest) :
    ∀ c ∈ rest.head?, c.isDigit = false ∧ c ≠ '.' ∧ c ≠ 'e' ∧ c ≠ 'E' := by
  intro c hc
  rcases h c hc with hblank | rfl | rfl | rfl
  · rcases isBlank_iff.mp hblank with rfl | rfl | rfl | rfl <;> decide
  all_goals decide

theorem digits_cons (n : Nat) : ∃ c cs, Numeral.digits n = c :: cs ∧ c.isDigit = true := by
  obtain ⟨c, cs, hcs⟩ : ∃ c cs, Numeral.digits n = c :: cs :=
    List.exists_cons_of_ne_nil Nat.toDigits_ne_nil
  have hmem : c ∈ Numeral.digits n := hcs ▸ List.mem_cons_self
  exact ⟨c, cs, hcs, Numeral.isDigit_of_mem_digits hmem⟩

theorem digitRun_text {ds s : List Char} (hds : ∀ c ∈ ds, c.isDigit = true)
    (hs : ∀ c ∈ s.head?, c.isDigit = false) : digitRun (ds ++ s) = (ds, s) := by
  have hstop : s.takeWhile Char.isDigit = [] ∧ s.dropWhile Char.isDigit = s := by
    cases s with
    | nil => exact ⟨rfl, rfl⟩
    | cons c s => simp [hs c rfl]
  unfold digitRun
  rw [List.takeWhile_append_of_pos hds, List.dropWhile_append_of_pos hds, hstop.1, hstop.2,
    List.append_nil]

theorem digitRun_digits (n : Nat) {rest : List Char} (hrest : Delimited rest) :
    digitRun (Numeral.digits n ++ rest) = (Numeral.digits n, rest) :=
  digitRun_text (fun _ hc => Numeral.isDigit_of_mem_digits hc) fun c hc => (hrest.number c hc).1

theorem head_digits {n : Nat} (hn : n ≠ 0) : ∀ c ∈ (Numeral.digits n).head?, c ≠ '0' := by
  have hchar : ∀ n < 10, n ≠ 0 → n.digitChar ≠ '0' := by decide
  unfold Numeral.digits
  induction n using Nat.strongRecOn with
  | _ n ih =>
    by_cases hlt : n < 10
    · rw [Nat.toDigits_of_lt_base hlt]
      rintro c ⟨⟩
      exact hchar n hlt hn
    · rw [Nat.toDigits_of_base_le (by decide) (Nat.not_lt.mp hlt),
        List.head?_append_of_ne_nil _ Nat.toDigits_ne_nil]
      exact ih (n / 10) (by omega) (by omega)

theorem wholePart_digits (n : Nat) {rest : List Char} (hrest : Delimited rest) :
    wholePart (Numeral.digits n ++ rest) = .ok (Numeral.digits n, rest) := by
  by_cases hn : n = 0
  · subst hn
    cases rest with
    | nil => rfl
    | cons c rest =>
      have hc := (hrest.number c rfl).1
      change (if c.isDigit then _ else _) = _
      rw [hc]
      rfl
  · obtain ⟨c, cs, hcs, hdigit⟩ := digits_cons n
    have hzero : c ≠ '0' := head_digits hn c (by rw [hcs]; rfl)
    have hrun := digitRun_digits n hrest
    rw [hcs] at hrun ⊢
    unfold wholePart
    rw [List.cons_append]
    dsimp only
    rw [if_neg hzero, if_pos hdigit, ← List.cons_append, hrun]

/-- A significand takes all digits of a number that fits a word. -/
theorem absorb_eq {cs : List Char} {s : Nat} (h : Nat.ofDigitChars 10 cs s ≤ greatestWord) :
    absorb s cs = (Nat.ofDigitChars 10 cs s, []) := by
  induction cs generalizing s with
  | nil => rfl
  | cons c cs ih =>
    have hgrow : ∀ (cs : List Char) (m : Nat), m ≤ Nat.ofDigitChars 10 cs m := by
      intro cs
      induction cs with
      | nil => exact fun m => Nat.le_refl m
      | cons d ds ihd =>
        intro m
        rw [Nat.ofDigitChars_cons]
        exact Nat.le_trans (by omega) (ihd _)
    have hstep : s * 10 + (c.toNat - 48) = 10 * s + (c.toNat - '0'.toNat) :=
      congrArg (· + (c.toNat - 48)) (Nat.mul_comm s 10)
    rw [Nat.ofDigitChars_cons] at h ⊢
    unfold absorb
    dsimp only
    rw [hstep, if_pos (Nat.le_trans (hgrow cs _) h), ih h]

theorem number_of_digit {c : Char} (hc : c.isDigit = true) (s : List Char) :
    number (c :: s) = (do
      let (whole, r) ← wholePart (c :: s)
      let (frac, r) ← fraction r
      let (e, r) ← exponent r
      let n ← assemble false whole frac e
      .ok (n, r)) := by
  unfold number
  split
  rename_i negative r hsign
  split at hsign
  · rename_i heq
    obtain ⟨rfl, -⟩ := List.cons.inj heq
    cases hc
  · obtain ⟨rfl, rfl⟩ := Prod.mk.inj hsign
    rfl

theorem fraction_delimited {rest : List Char} (h : Delimited rest) :
    fraction rest = .ok (none, rest) := by
  unfold fraction
  split
  · exact absurd rfl (h.number '.' rfl).2.1
  · rfl

theorem exponent_delimited {rest : List Char} (h : Delimited rest) :
    exponent rest = .ok (none, rest) := by
  cases rest with
  | nil => rfl
  | cons c rest =>
    obtain ⟨-, -, he, hE⟩ := h.number c rfl
    exact if_neg (not_or.mpr ⟨he, hE⟩)

theorem assemble_digits (n : UInt64) :
    assemble false (Numeral.digits n.toNat) none none = .ok (.natural n) := by
  have hvalue : Nat.ofDigitChars 10 (Numeral.digits n.toNat) 0 = n.toNat :=
    Numeral.value_digits n.toNat
  have habsorb : absorb 0 (Numeral.digits n.toNat) = (n.toNat, []) := by
    rw [absorb_eq (by rw [hvalue]; exact Nat.le_of_lt_succ n.toNat_lt), hvalue]
  have hword : n.toNat.toUInt64 = n := UInt64.ofNat_toNat
  unfold assemble
  rw [habsorb]
  exact congrArg (fun n => Except.ok (Number.natural n)) hword

/-- **A number that fits a word is read back from its digits.** -/
theorem number_digits (n : UInt64) {rest : List Char} (hrest : Delimited rest) :
    number (Numeral.digits n.toNat ++ rest) = .ok (.natural n, rest) := by
  obtain ⟨c, cs, hcs, hc⟩ := digits_cons n.toNat
  have hwhole := wholePart_digits n.toNat hrest
  have hassemble := assemble_digits n
  rw [hcs] at hwhole hassemble ⊢
  rw [List.cons_append] at hwhole ⊢
  rw [number_of_digit hc]
  simp only [hwhole, ok_bind, fraction_delimited hrest, exponent_delimited hrest, hassemble]

theorem natural_lenient (kind : String) (bound : Nat) : Lenient (natural kind bound) := by
  intro w s hw
  unfold natural
  rw [skipBlanks_blanks hw]

/-- A number without leading zeros, up to the bound of the reader. -/
theorem natural_reads (kind : String) {bound : Nat} {n : UInt64} (hn : n.toNat ≤ bound) :
    Reads (natural kind bound) (Numeral.digits n.toNat) n := by
  intro rest hrest
  obtain ⟨c, cs, hcs, hc⟩ := digits_cons n.toNat
  have hnumber := number_digits n hrest
  rw [hcs, List.cons_append] at hnumber ⊢
  unfold natural
  rw [skipBlanks_cons (isBlank_of_isDigit hc)]
  dsimp only
  rw [if_pos (Or.inr hc), hnumber]
  exact if_pos hn

theorem natural64_reads (n : UInt64) : Reads natural64 (Numeral.digits n.toNat) n :=
  natural_reads "u64" (Nat.le_of_lt_succ n.toNat_lt)

end LossRelay.Json
