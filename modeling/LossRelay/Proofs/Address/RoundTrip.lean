import LossRelay.Proofs.Address.Numbers
import Mathlib.Data.List.TakeWhile

/-!
# Endpoints are read back from their text

The text of an address of eight groups leaves out the first longest run of two or more zero groups,
and shows embedded octets as such.  Reading the groups on both sides of a double colon and filling
in zeros gives the groups back (`IPv6.read_chars`), and with it every endpoint is what its text
names (`Endpoint.parse?_chars`).
-/

namespace LossRelay

namespace IPv6

/-! ### Groups -/

/-- Groups, each behind a colon. -/
def followed (gs : List UInt16) : List Char := gs.flatMap fun g => ':' :: groupChars g

theorem joined_cons (g : UInt16) (gs : List UInt16) :
    joined (g :: gs) = groupChars g ++ followed gs := by
  induction gs generalizing g with
  | nil => exact (List.append_nil _).symm
  | cons h gs ih =>
    change groupChars g ++ ':' :: joined (h :: gs) = _
    rw [ih]
    rfl

/-- What may stand behind the groups of an address: a closing bracket, the sign of a scope, or a
double colon. -/
inductive AfterGroups : List Char → Prop
  | bracket (s : List Char) : AfterGroups (']' :: s)
  | percent (s : List Char) : AfterGroups ('%' :: s)
  | colons (s : List Char) : AfterGroups (':' :: ':' :: s)

/-- A group ends here. -/
def EndsGroup (rest : List Char) : Prop := ∀ c ∈ rest.head?, c = ':' ∨ c = ']' ∨ c = '%'

theorem endsGroup_followed (gs : List UInt16) {rest : List Char} (h : AfterGroups rest) :
    EndsGroup (followed gs ++ rest) := by
  cases gs with
  | nil =>
    cases h with
    | bracket s =>
      rintro c ⟨⟩
      exact Or.inr (Or.inl rfl)
    | percent s =>
      rintro c ⟨⟩
      exact Or.inr (Or.inr rfl)
    | colons s =>
      rintro c ⟨⟩
      exact Or.inl rfl
  | cons g gs =>
    rintro c ⟨⟩
    exact Or.inl rfl

theorem EndsGroup.no_digit {rest : List Char} (h : EndsGroup rest) :
    ∀ c ∈ rest.head?, baseDigit? 10 c = none ∧ baseDigit? 16 c = none ∧ c ≠ '.' := by
  intro c hc
  rcases h c hc with rfl | rfl | rfl <;> decide

theorem read_group (g : UInt16) {rest : List Char} (h : EndsGroup rest) :
    groupForm.read (groupChars g ++ rest) = some (g.toNat, rest) :=
  NumberForm.read_digits (groupForm_admits g) fun c hc => (h.no_digit c hc).2.1

theorem read_octets_group (g : UInt16) {rest : List Char} (h : EndsGroup rest) :
    IPv4.read (groupChars g ++ rest) = none := by
  have hpoint : ∀ c ∈ groupChars g, c ≠ '.' := by
    rintro c hc rfl
    have hdigit := isSome_of_mem_toDigits hasDigits_sixteen hc
    cases hdigit
  apply IPv4.read_eq_none
  generalize groupChars g = ds at hpoint
  induction ds with
  | nil =>
    intro c hc
    rw [List.nil_append] at hc
    cases rest with
    | nil => cases hc
    | cons d rest =>
      obtain ⟨hd, -, hne⟩ := h.no_digit d rfl
      rw [List.dropWhile_cons_of_neg (by rw [show octetForm.base = 10 from rfl, hd]; decide)] at hc
      obtain rfl := Option.some.inj hc
      exact hne
  | cons d ds ih =>
    rw [List.cons_append, List.dropWhile_cons]
    split
    · exact ih fun c hc => hpoint c (List.mem_cons_of_mem _ hc)
    · rintro c ⟨⟩
      exact hpoint _ (List.mem_cons_self ..)

/-! ### Reading groups -/

theorem readGroups_stop (room : Nat) (first : Bool) {rest : List Char} (h : AfterGroups rest) :
    readGroups room first rest = ([], false, rest) := by
  cases room with
  | zero => rfl
  | succ room =>
    have hnone : (separator first rest >>= IPv4.read) = none ∧
        (separator first rest >>= groupForm.read) = none := by
      cases first <;> cases h <;> exact ⟨rfl, rfl⟩
    rw [readGroups, hnone.1, hnone.2, ite_self]

theorem readGroups_group (room : Nat) {first : Bool} {s : List Char} {g : UInt16} {rest : List Char}
    (hs : separator first s = some (groupChars g ++ rest)) (h : EndsGroup rest) :
    readGroups (room + 1) first s =
      (g :: (readGroups room false rest).1, (readGroups room false rest).2) := by
  have hoctets : (separator first s >>= IPv4.read) = none := by
    rw [hs]
    exact read_octets_group g h
  have hgroup : (separator first s >>= groupForm.read) = some (g.toNat, rest) := by
    rw [hs]
    exact read_group g h
  rw [readGroups, hoctets, hgroup, ite_self]
  simp

theorem readGroups_followed {room : Nat} {gs : List UInt16} (hroom : gs.length ≤ room)
    {rest : List Char} (h : AfterGroups rest) :
    readGroups room false (followed gs ++ rest) = (gs, false, rest) := by
  induction gs generalizing room with
  | nil => exact readGroups_stop room false h
  | cons g gs ih =>
    obtain ⟨room, rfl⟩ := Nat.exists_eq_add_one_of_ne_zero (Nat.ne_zero_of_lt hroom)
    have hs : separator false (followed (g :: gs) ++ rest) =
        some (groupChars g ++ (followed gs ++ rest)) := by
      rw [← List.append_assoc]
      rfl
    rw [readGroups_group room hs (endsGroup_followed gs h), ih (Nat.le_of_succ_le_succ hroom)]

/-- **Groups are read back**, if there is room for them. -/
theorem readGroups_joined {room : Nat} {gs : List UInt16} (hroom : gs.length ≤ room)
    {rest : List Char} (h : AfterGroups rest) :
    readGroups room true (joined gs ++ rest) = (gs, false, rest) := by
  cases gs with
  | nil => exact readGroups_stop room true h
  | cons g gs =>
    obtain ⟨room, rfl⟩ := Nat.exists_eq_add_one_of_ne_zero (Nat.ne_zero_of_lt hroom)
    have hs : separator true (joined (g :: gs) ++ rest) =
        some (groupChars g ++ (followed gs ++ rest)) := by
      rw [joined_cons, List.append_assoc]
      rfl
    rw [readGroups_group room hs (endsGroup_followed gs h),
      readGroups_followed (Nat.le_of_succ_le_succ hroom) h]

theorem readGroups_octets (room : Nat) (ip : IPv4) {rest : List Char}
    (h : ∀ c ∈ rest.head?, baseDigit? 10 c = none) :
    readGroups (room + 2) false (':' :: (ip.chars ++ rest)) = (groupsOfOctets ip, true, rest) := by
  have hread : (separator false (':' :: (ip.chars ++ rest)) >>= IPv4.read) = some (ip, rest) :=
    IPv4.read_chars ip h
  rw [readGroups, hread, if_neg (Nat.succ_ne_zero _)]

theorem groupsOfOctets_lastOctets (g h : UInt16) : groupsOfOctets (lastOctets g h) = [g, h] := by
  have hword (n : UInt16) : (n / 256).toUInt8.toUInt16 * 256 + (n % 256).toUInt8.toUInt16 = n := by
    have hlt := n.toNat_lt
    rw [← UInt16.toNat_inj]
    simp
    omega
  unfold groupsOfOctets lastOctets
  dsimp only
  rw [hword, hword]

/-! ### The run of zeros -/

/-- Where the longest run of zeros is said to be there are so many zeros. -/
theorem longestZeros_prefix (gs : List UInt16) :
    List.replicate (longestZeros gs).2 0 <+: gs.drop (longestZeros gs).1 := by
  have hahead (i : Nat) : List.replicate (zerosAhead (gs.drop i)) 0 <+: gs.drop i := by
    have hzeros : (gs.drop i).takeWhile (· == 0) = List.replicate (zerosAhead (gs.drop i)) 0 :=
      List.eq_replicate_of_mem fun g hg => by simpa using List.mem_takeWhile_imp hg
    rw [← hzeros]
    exact List.takeWhile_prefix _
  unfold longestZeros
  -- the fold keeps the best run so far
  refine List.foldlRecOn (motive := fun best : Nat × Nat =>
    List.replicate best.2 0 <+: gs.drop best.1) _ _ List.nil_prefix fun best hbest i _ => ?_
  dsimp only
  split
  · exact hahead i
  · exact hbest

/-- Groups are what stands before the run of zeros, the run, and what stands behind it. -/
theorem spread_longestZeros {gs : List UInt16} (hlength : gs.length = 8) {start run : Nat}
    (hzeros : longestZeros gs = (start, run)) (hrun : 1 < run) :
    start + run ≤ 8 ∧ spread (gs.take start) (gs.drop (start + run)) = gs := by
  have hprefix := longestZeros_prefix gs
  rw [hzeros] at hprefix
  obtain ⟨back, hback⟩ := hprefix
  dsimp only at hback
  have hlen := congrArg List.length hback
  rw [List.length_append, List.length_replicate, List.length_drop, hlength] at hlen
  have hdrop : gs.drop (start + run) = back := by
    rw [← List.drop_drop, ← hback, List.drop_left' List.length_replicate]
  have hzerosBetween : 8 - (gs.take start).length - back.length = run := by
    rw [List.length_take, hlength]
    omega
  refine ⟨by omega, ?_⟩
  unfold spread
  rw [hdrop, hzerosBetween, List.append_assoc, hback, List.take_append_drop]

/-! ### Addresses of eight groups -/

theorem ofGroups?_groups (ip : IPv6) : ofGroups? ip.groups = some ip := dif_pos ip.length_groups

theorem read_colons {front back : List UInt16} {ip : IPv6} {octets : Bool} {s r rest : List Char}
    (hfront : readGroups 8 true s = (front, false, ':' :: ':' :: r)) (hroom : front.length < 8)
    (hback : readGroups (7 - front.length) true r = (back, octets, rest))
    (hip : spread front back = ip.groups) : IPv6.read s = some (ip, rest) := by
  unfold read
  rw [hfront]
  dsimp only
  rw [if_neg (Nat.ne_of_lt hroom), if_neg Bool.false_ne_true]
  simp only [expect_cons, Option.bind_eq_bind, Option.bind_some, hback, hip, ofGroups?_groups]

/-- **An address of eight groups is read back from its text.** -/
theorem read_chars (ip : IPv6) {rest : List Char} (h : AfterGroups rest) :
    IPv6.read (ip.chars ++ rest) = some (ip, rest) := by
  have hrest : EndsGroup rest := endsGroup_followed [] h
  unfold chars
  split
  · -- the last two groups are shown as octets
    rename_i g k hgroups
    have hfront : readGroups 8 true (([':', ':', 'f', 'f', 'f', 'f', ':'] ++
        (lastOctets g k).chars) ++ rest) = ([], false, [':', ':', 'f', 'f', 'f', 'f', ':'] ++
        (lastOctets g k).chars ++ rest) := readGroups_stop 8 true (.colons _)
    have hs : separator true (groupChars 0xFFFF ++ ':' :: ((lastOctets g k).chars ++ rest)) =
        some (groupChars 0xFFFF ++ ':' :: ((lastOctets g k).chars ++ rest)) := rfl
    have hcolon : EndsGroup (':' :: ((lastOctets g k).chars ++ rest)) := by
      rintro c ⟨⟩
      exact Or.inl rfl
    have hback := readGroups_group 6 hs hcolon
    rw [readGroups_octets 4 _ fun c hc => (hrest.no_digit c hc).1, groupsOfOctets_lastOctets]
      at hback
    exact read_colons hfront (by decide) hback hgroups.symm
  · generalize hzeros : longestZeros ip.groups = best
    obtain ⟨start, run⟩ := best
    dsimp only
    by_cases hrun : 1 < run
    · -- a run of zeros is left out
      obtain ⟨hend, hspread⟩ := spread_longestZeros ip.length_groups hzeros hrun
      have hstart : (ip.groups.take start).length = start := by
        rw [List.length_take, ip.length_groups]
        omega
      have hleft : (ip.groups.drop (start + run)).length ≤ 7 - (ip.groups.take start).length := by
        rw [List.length_drop, ip.length_groups, hstart]
        omega
      have hback := readGroups_joined hleft h
      rw [if_pos hrun, List.append_assoc]
      exact read_colons (readGroups_joined (by omega) (.colons _)) (by omega) hback hspread
    · -- all eight groups are written
      rw [if_neg hrun]
      unfold read
      rw [readGroups_joined (Nat.le_of_eq ip.length_groups) h]
      dsimp only
      rw [if_pos ip.length_groups, ofGroups?_groups]
      rfl

end IPv6

/-! ### Endpoints -/

theorem readPort_digits (port : UInt16) :
    readPort (':' :: Numeral.digits port.toNat) = some port := by
  have hport : portForm.read (Numeral.digits port.toNat) = some (port.toNat, []) := by
    have hend : ∀ c ∈ ([] : List Char).head?, baseDigit? portForm.base c = none := nofun
    have hread := NumberForm.read_digits (portForm_admits port) hend
    rwa [List.append_nil] at hread
  unfold readPort
  simp [expect_cons, hport]

theorem readScope_digits (scope : UInt32) (s : List Char) :
    readScope ((if scope = 0 then [] else '%' :: Numeral.digits scope.toNat) ++ ']' :: s) =
      (scope, ']' :: s) := by
  by_cases hzero : scope = 0
  · rw [if_pos hzero, hzero]
    rfl
  · have hscope : scopeForm.read (Numeral.digits scope.toNat ++ ']' :: s) =
        some (scope.toNat, ']' :: s) := by
      refine NumberForm.read_digits (scopeForm_admits scope) ?_
      rintro c ⟨⟩
      decide
    rw [if_neg hzero, List.cons_append]
    unfold readScope
    rw [expect_cons, Option.bind_eq_bind, Option.bind_some, hscope]
    simp

theorem Endpoint.parseV4?_chars (host : IPv4) (port : UInt16) :
    parseV4? (Endpoint.v4 host port).chars = some (.v4 host port) := by
  have hcolon : ∀ c ∈ (':' :: Numeral.digits port.toNat).head?, baseDigit? 10 c = none := by
    rintro c ⟨⟩
    decide
  unfold parseV4? chars
  rw [IPv4.read_chars host hcolon, Option.bind_eq_bind, Option.bind_some]
  dsimp only
  rw [readPort_digits]
  rfl

theorem Endpoint.parseV6?_chars (host : IPv6) (port : UInt16) (scope : UInt32) :
    parseV6? (Endpoint.v6 host port scope).chars = some (.v6 host port scope) := by
  have hafter : IPv6.AfterGroups ((if scope = 0 then [] else '%' :: Numeral.digits scope.toNat) ++
      ']' :: ':' :: Numeral.digits port.toNat) := by
    split
    · exact .bracket _
    · exact .percent _
  unfold parseV6? chars
  simp only [expect_cons, Option.bind_eq_bind, Option.bind_some, IPv6.read_chars host hafter,
    readScope_digits, readPort_digits]

/-- **An endpoint is what its text names**, whatever its address, its port and its scope. -/
theorem Endpoint.parse?_chars (e : Endpoint) : parse? e.chars = some e := by
  unfold parse?
  cases e with
  | v4 host port =>
    rw [parseV4?_chars]
    rfl
  | v6 host port scope =>
    -- a bracket does not open four octets
    have hoctets : parseV4? (Endpoint.v6 host port scope).chars = none := rfl
    rw [hoctets]
    exact parseV6?_chars host port scope

/-- An address with two runs of zeros, of which the first is left out, and a scope. -/
example :
    let host : IPv6 := ⟨[1, 0, 0, 2, 0, 0, 0xab, 3], rfl⟩
    (Endpoint.v6 host 53 7).chars = "[1::2:0:0:ab:3%7]:53".toList ∧
      Endpoint.parse? "[1::2:0:0:ab:3%7]:53".toList = some (.v6 host 53 7) := by decide

end LossRelay
