import LossRelay.Address.Parse
import LossRelay.Proofs.Json.Reading
import Mathlib.Algebra.GroupWithZero.Nat

/-!
# Numbers in addresses

A number inside an address is written without leading zeros, in base ten or sixteen.  Every form
that admits it reads it back, whatever follows its digits and is no digit
(`NumberForm.read_digits`).  So four octets are read back (`IPv4.read_chars`), and a text that has
no point after its digits is not taken for them (`IPv4.read_eq_none`).
-/

namespace LossRelay

/-! ### Digits -/

/-- Every digit of the base is read as what it is. -/
structure HasDigits (base : Nat) : Prop where
  one_lt : 1 < base
  digit : ∀ d < base, baseDigit? base d.digitChar = some d

theorem hasDigits_ten : HasDigits 10 := ⟨by decide, by decide⟩

theorem hasDigits_sixteen : HasDigits 16 := ⟨by decide, by decide⟩

section Digits

variable {base : Nat} (hbase : HasDigits base)

include hbase

theorem isSome_of_mem_toDigits {n : Nat} {c : Char} (hc : c ∈ Nat.toDigits base n) :
    (baseDigit? base c).isSome = true := by
  have hpos : 0 < base := Nat.lt_trans Nat.zero_lt_one hbase.one_lt
  induction n using Nat.strongRecOn with
  | _ n ih =>
    by_cases hlt : n < base
    · rw [Nat.toDigits_of_lt_base hlt, List.mem_singleton] at hc
      rw [hc, hbase.digit n hlt]
      rfl
    · have hle := Nat.not_lt.mp hlt
      rw [Nat.toDigits_of_base_le hbase.one_lt hle, List.mem_append, List.mem_singleton] at hc
      rcases hc with hc | rfl
      · exact ih (n / base) (Nat.div_lt_self (Nat.lt_of_lt_of_le hpos hle) hbase.one_lt) hc
      · rw [hbase.digit _ (Nat.mod_lt n hpos)]
        rfl

theorem foldl_toDigits (n : Nat) :
    (Nat.toDigits base n).foldl (fun n c => n * base + (baseDigit? base c).getD 0) 0 = n := by
  have hpos : 0 < base := Nat.lt_trans Nat.zero_lt_one hbase.one_lt
  induction n using Nat.strongRecOn with
  | _ n ih =>
    by_cases hlt : n < base
    · rw [Nat.toDigits_of_lt_base hlt, List.foldl_cons, List.foldl_nil, hbase.digit n hlt,
        Nat.zero_mul, Nat.zero_add]
      rfl
    · have hle := Nat.not_lt.mp hlt
      have hless := Nat.div_lt_self (Nat.lt_of_lt_of_le hpos hle) hbase.one_lt
      rw [Nat.toDigits_of_base_le hbase.one_lt hle, List.foldl_append, ih _ hless, List.foldl_cons,
        List.foldl_nil, hbase.digit _ (Nat.mod_lt n hpos)]
      exact Nat.div_add_mod' n base

theorem takeWhile_toDigits (n : Nat) {rest : List Char}
    (hrest : ∀ c ∈ rest.head?, baseDigit? base c = none) :
    (Nat.toDigits base n ++ rest).takeWhile (fun c => (baseDigit? base c).isSome) =
      Nat.toDigits base n := by
  rw [List.takeWhile_append_of_pos fun c hc => isSome_of_mem_toDigits hbase hc]
  cases rest with
  | nil => exact List.append_nil _
  | cons c rest =>
    rw [List.takeWhile_cons_of_neg (by rw [hrest c rfl]; decide), List.append_nil]

end Digits

/-! ### Forms -/

/-- A form that reads a number when it is written without leading zeros. -/
structure NumberForm.Admits (form : NumberForm) (n : Nat) : Prop where
  digits : HasDigits form.base
  bound : n ≤ form.bound
  most : ∀ k ∈ form.mostDigits, 0 < k ∧ n < form.base ^ k
  zeros : form.leadingZeros = true ∨ form.base = 10

theorem octetForm_admits (n : UInt8) : octetForm.Admits n.toNat := by
  have hlt := n.toNat_lt
  refine ⟨hasDigits_ten, Nat.le_of_lt_succ hlt, ?_, Or.inr rfl⟩
  rintro k ⟨⟩
  exact ⟨by decide, Nat.lt_trans hlt (by decide)⟩

theorem groupForm_admits (n : UInt16) : groupForm.Admits n.toNat := by
  refine ⟨hasDigits_sixteen, Nat.le_of_lt_succ n.toNat_lt, ?_, Or.inl rfl⟩
  rintro k ⟨⟩
  exact ⟨by decide, n.toNat_lt⟩

theorem portForm_admits (n : UInt16) : portForm.Admits n.toNat :=
  ⟨hasDigits_ten, Nat.le_of_lt_succ n.toNat_lt, nofun, Or.inl rfl⟩

theorem scopeForm_admits (n : UInt32) : scopeForm.Admits n.toNat :=
  ⟨hasDigits_ten, Nat.le_of_lt_succ n.toNat_lt, nofun, Or.inl rfl⟩

/-- **A number is read back from its digits** by every form that admits it. -/
theorem NumberForm.read_digits {form : NumberForm} {n : Nat} (h : form.Admits n) {rest : List Char}
    (hrest : ∀ c ∈ rest.head?, baseDigit? form.base c = none) :
    form.read (Nat.toDigits form.base n ++ rest) = some (n, rest) := by
  have hmost : form.mostDigits.any (fun k => decide (k < (Nat.toDigits form.base n).length)) =
      false := by
    cases hk : form.mostDigits with
    | none => rfl
    | some k =>
      obtain ⟨hpos, hlt⟩ := h.most k hk
      have hlen := (Nat.length_toDigits_le_iff h.digits.one_lt hpos).mpr hlt
      simpa using hlen
  have hzeros : (!form.leadingZeros && (Nat.toDigits form.base n).head? == some '0' &&
      decide (1 < (Nat.toDigits form.base n).length)) = false := by
    rcases h.zeros with hzeros | hten
    · rw [hzeros]
      rfl
    · -- only zero starts with a zero, and has no other digit
      rw [hten]
      by_cases hn : n = 0
      · subst hn
        simp
      · have hhead := Json.head_digits hn
        unfold Numeral.digits at hhead
        have hne : (Nat.toDigits 10 n).head? ≠ some '0' := fun hc => hhead '0' hc rfl
        simp [hne]
  unfold read
  rw [takeWhile_toDigits h.digits n hrest]
  dsimp only
  rw [foldl_toDigits h.digits n, List.isEmpty_eq_false_iff.mpr Nat.toDigits_ne_nil, hmost, hzeros,
    List.drop_left]
  simp [h.bound]

/-- What follows a number starts where its digits end. -/
theorem NumberForm.eq_dropWhile_of_read {form : NumberForm} {s r : List Char} {n : Nat}
    (h : form.read s = some (n, r)) :
    r = s.dropWhile fun c => (baseDigit? form.base c).isSome := by
  have hsplit : s.takeWhile (fun c => (baseDigit? form.base c).isSome) ++
      s.dropWhile (fun c => (baseDigit? form.base c).isSome) = s := List.takeWhile_append_dropWhile
  have hdrop := congrArg
    (List.drop (s.takeWhile fun c => (baseDigit? form.base c).isSome).length) hsplit
  rw [List.drop_left] at hdrop
  unfold read at h
  dsimp only at h
  split at h
  · cases h
  · split at h
    · cases h
    · split at h
      · cases h
      · split at h
        · cases h
        · obtain ⟨-, rfl⟩ := Prod.mk.inj (Option.some.inj h)
          exact hdrop.symm

/-! ### Four octets -/

theorem expect_cons (c : Char) (s : List Char) : expect c (c :: s) = some s := if_pos rfl

theorem expect_eq_none {c : Char} {s : List Char} (h : ∀ d ∈ s.head?, d ≠ c) :
    expect c s = none := by
  cases s with
  | nil => rfl
  | cons d s => exact if_neg (h d rfl)

theorem IPv4.read_chars (ip : IPv4) {rest : List Char}
    (hrest : ∀ c ∈ rest.head?, baseDigit? 10 c = none) :
    IPv4.read (ip.chars ++ rest) = some (ip, rest) := by
  have hpoint (s : List Char) : ∀ c ∈ ('.' :: s).head?, baseDigit? octetForm.base c = none := by
    rintro c ⟨⟩
    decide
  have hoctet (n : UInt8) (s : List Char) :
      octetForm.read (Numeral.digits n.toNat ++ '.' :: s) = some (n.toNat, '.' :: s) :=
    NumberForm.read_digits (octetForm_admits n) (hpoint s)
  have hlast : octetForm.read (Numeral.digits ip.d.toNat ++ rest) = some (ip.d.toNat, rest) :=
    NumberForm.read_digits (octetForm_admits ip.d) hrest
  unfold read chars
  simp only [List.append_assoc, List.cons_append, hoctet, hlast, expect_cons, Option.bind_eq_bind,
    Option.bind_some]
  obtain ⟨a, b, c, d⟩ := ip
  simp

theorem IPv4.read_eq_none {s : List Char}
    (h : ∀ c ∈ (s.dropWhile fun c => (baseDigit? octetForm.base c).isSome).head?, c ≠ '.') :
    IPv4.read s = none := by
  unfold read
  cases hread : octetForm.read s with
  | none => rfl
  | some result =>
    obtain ⟨n, r⟩ := result
    obtain rfl := NumberForm.eq_dropWhile_of_read hread
    dsimp only [Option.bind_eq_bind, Option.bind_some]
    rw [expect_eq_none h]
    rfl

end LossRelay
