import LossRelay.Proofs.Json.Values

/-!
# What an accepted value tells

A reader that is `Exact` and accepts a well-formed value has taken exactly that value off the front
of the document, and would have given the same whatever follows.  Numbers, lists and choices have
exact readers; the literal of a string that is accepted spells the string (`spelled_of_string`).
-/

namespace LossRelay.Json

variable {α β : Type}

/-- A reader that accepts a well-formed value takes exactly that value, whatever follows. -/
def Exact (read : Reader α) : Prop :=
  ∀ ⦃text rest r : List Char⦄ ⦃a : α⦄, Formed text → Delimited rest →
    read (text ++ rest) = .ok (a, r) → r = rest ∧ Reads read text a

theorem bind_eq_ok {γ δ : Type} {x : Except Error γ} {f : γ → Except Error δ} {d : δ} :
    (x >>= f) = .ok d ↔ ∃ c, x = .ok c ∧ f c = .ok d := by
  cases x with
  | error e => exact ⟨nofun, fun ⟨_, h, _⟩ => nomatch h⟩
  | ok c => exact ⟨fun h => ⟨c, rfl, h⟩, fun ⟨_, h, h'⟩ => Except.ok.inj h ▸ h'⟩

theorem NumberText.isDigit_head {c : Char} {text : List Char} (h : NumberText (c :: text)) :
    c.isDigit = true := by
  obtain ⟨d, t, ht, hd⟩ := h.head
  obtain ⟨rfl, -⟩ := List.cons.inj ht
  exact hd

theorem Formed.number_inv {c : Char} {text : List Char} (h : Formed (c :: text))
    (hc : c = '-' ∨ c.isDigit) :
    ∃ sign body, (sign = [] ∨ sign = ['-']) ∧ NumberText body ∧ c :: text = sign ++ body := by
  cases h with
  | number h => exact ⟨[], _, Or.inl rfl, h, rfl⟩
  | negative h => exact ⟨['-'], _, Or.inr rfl, h, rfl⟩
  | _ => exact absurd hc (by decide)

theorem Formed.list_inv {text : List Char} (h : Formed ('[' :: text)) :
    ∃ ts, (∀ t ∈ ts, Formed t) ∧ Laid ']' Eq true ts text := by
  cases h with
  | number h => cases h.isDigit_head
  | list hts h => exact ⟨_, hts, h⟩

theorem Formed.object_inv {text : List Char} (h : Formed ('\x7b' :: text)) :
    ∃ ms, (∀ m ∈ ms, Formed m.value) ∧ Laid '\x7d' RawMember.Text true ms text := by
  cases h with
  | number h => cases h.isDigit_head
  | object hms h => exact ⟨_, hms, h⟩

theorem Formed.string_inv {text : List Char} (h : Formed ('"' :: text)) :
    ∃ body, Shaped body ∧ text = body ++ ['"'] := by
  cases h with
  | number h => cases h.isDigit_head
  | string h => exact ⟨_, h, rfl⟩

theorem Formed.null_inv {text : List Char} (h : Formed ('n' :: text)) :
    text = ['u', 'l', 'l'] := by
  cases h with
  | number h => cases h.isDigit_head
  | null => rfl

/-- Two outcomes of one reader are one outcome. -/
theorem exact_of_reads {read : Reader α} {text rest r : List Char} {a b : α}
    (hrest : Delimited rest) (h : read (text ++ rest) = .ok (a, r)) (hreads : Reads read text b) :
    r = rest ∧ Reads read text a := by
  rw [hreads rest hrest] at h
  obtain ⟨rfl, rfl⟩ := Prod.mk.inj (Except.ok.inj h)
  exact ⟨rfl, hreads⟩

theorem Exact.of_document {read : Reader α} (h : Exact read) (hread : Lenient read)
    {text : String} {w t w' : List Char} {a : α} (ht : Formed t) (hw : Blanks w) (hw' : Blanks w')
    (htext : text.toList = w ++ (t ++ w')) (hdocument : document read text = .ok a) :
    Reads read t a := by
  have hrest : Delimited w' := fun c hc => Or.inl (hw' c (List.mem_of_mem_head? hc))
  unfold document at hdocument
  rw [htext, hread w _ hw] at hdocument
  obtain ⟨⟨b, r⟩, hb, hend⟩ := bind_eq_ok.mp hdocument
  obtain ⟨-, hreads⟩ := h ht hrest hb
  dsimp only at hend
  split at hend
  · obtain rfl := Except.ok.inj hend
    exact hreads
  · cases hend

theorem Exact.map {read : Reader α} (h : Exact read) (f : α → β) :
    Exact (fun s => do let (a, r) ← read s; .ok (f a, r)) := by
  intro text rest r b htext hrest hread
  obtain ⟨⟨a, r'⟩, ha, hok⟩ := bind_eq_ok.mp hread
  obtain ⟨rfl, rfl⟩ := Prod.mk.inj (Except.ok.inj hok)
  obtain ⟨rfl, hreads⟩ := h htext hrest ha
  exact ⟨rfl, hreads.map f⟩

/-! ### Numbers -/

theorem someDigits_text {ds s : List Char} (hds : DigitsText ds) (hs : NoDigit s) :
    someDigits (ds ++ s) = .ok (ds, s) := by
  obtain ⟨d, ds, rfl⟩ := List.exists_cons_of_ne_nil hds.1
  unfold someDigits
  rw [digitRun_text hds.2 hs]

theorem wholePart_text {whole s : List Char} (h : WholeText whole) (hs : NoDigit s) :
    wholePart (whole ++ s) = .ok (whole, s) := by
  rcases h with rfl | ⟨hds, hzero⟩
  · cases s with
    | nil => rfl
    | cons d s =>
      change (if d.isDigit then _ else _) = _
      rw [hs d rfl]
      rfl
  · have hrun := digitRun_text hds.2 hs
    obtain ⟨d, ds, rfl⟩ := List.exists_cons_of_ne_nil hds.1
    have hd := hds.2 d (List.mem_cons_self ..)
    unfold wholePart
    rw [List.cons_append]
    dsimp only
    rw [if_neg (hzero d rfl), if_pos hd, ← List.cons_append, hrun]

theorem fraction_text {frac : List Char} (h : FractionText frac) :
    ∃ places, ∀ s, NoDigit s → (∀ c ∈ s.head?, c ≠ '.') →
      fraction (frac ++ s) = .ok (places, s) := by
  rcases h with rfl | ⟨ds, hds, rfl⟩
  · refine ⟨none, fun s _ hpoint => ?_⟩
    unfold fraction
    rw [List.nil_append]
    split
    · exact absurd rfl (hpoint '.' rfl)
    · rfl
  · refine ⟨some ds, fun s hs _ => ?_⟩
    change (someDigits (ds ++ s) >>= _) = _
    rw [someDigits_text hds hs]
    rfl

theorem exponent_text {e : List Char} (h : ExponentText e) :
    ∃ n, ∀ rest, Delimited rest → exponent (e ++ rest) = .ok (n, rest) := by
  rcases h with rfl | ⟨letter, sign, ds, hletter, hsign, hds, rfl⟩
  · exact ⟨none, fun rest hrest => exponent_delimited hrest⟩
  · obtain ⟨negative, hafter⟩ := exponentSign_text hsign hds
    refine ⟨some (if negative then -(Numeral.value ds : Int) else Numeral.value ds),
      fun rest hrest => ?_⟩
    unfold exponent
    rw [List.cons_append, List.append_assoc]
    dsimp only
    rw [if_pos hletter, hafter]
    dsimp only
    rw [someDigits_text hds hrest.noDigit]
    rfl

/-- A number literal whose minus sign, if it has one, is gone. -/
def numberAfter (negative : Bool) : Reader Number := fun s => do
  let (whole, r) ← wholePart s
  let (frac, r) ← fraction r
  let (e, r) ← exponent r
  let n ← assemble negative whole frac e
  .ok (n, r)

/-- A literal is taken apart alike whatever follows it. -/
theorem numberAfter_text (negative : Bool) {text : List Char} (h : NumberText text) :
    ∃ outcome : Except Error Number, ∀ rest, Delimited rest →
      numberAfter negative (text ++ rest) = outcome.map fun n => (n, rest) := by
  obtain ⟨whole, frac, e, hwhole, hfrac, he, rfl⟩ := h
  obtain ⟨places, hplaces⟩ := fraction_text hfrac
  obtain ⟨n, hn⟩ := exponent_text he
  refine ⟨assemble negative whole places n, fun rest hrest => ?_⟩
  have hnodigit := he.noDigit hrest.noDigit
  have hpoint : ∀ c ∈ (e ++ rest).head?, c ≠ '.' := by
    rcases he with rfl | ⟨_, _, _, rfl | rfl, -, -, rfl⟩
    · exact fun c hc => (hrest.number c hc).2.1
    · rintro c ⟨⟩
      decide
    · rintro c ⟨⟩
      decide
  unfold numberAfter
  simp only [List.append_assoc, wholePart_text hwhole (hfrac.noDigit hnodigit), ok_bind,
    hplaces _ hnodigit hpoint, hn rest hrest]
  cases assemble negative whole places n <;> rfl

theorem number_text {sign text : List Char} (hsign : sign = [] ∨ sign = ['-'])
    (h : NumberText text) :
    ∃ outcome : Except Error Number, ∀ rest, Delimited rest →
      number (sign ++ (text ++ rest)) = outcome.map fun n => (n, rest) := by
  rcases hsign with rfl | rfl
  · obtain ⟨outcome, hout⟩ := numberAfter_text false h
    obtain ⟨c, t, rfl, hc⟩ := h.head
    exact ⟨outcome, fun rest hrest => (number_of_digit hc _).trans (hout rest hrest)⟩
  · exact numberAfter_text true h

theorem natural_of_number {kind : String} {bound : Nat} {c : Char} {s : List Char}
    (hblank : isBlank c = false) (hc : c = '-' ∨ c.isDigit) {n : UInt64} {r : List Char} :
    natural kind bound (c :: s) = .ok (n, r) ↔
      number (c :: s) = .ok (.natural n, r) ∧ n.toNat ≤ bound := by
  unfold natural
  rw [skipBlanks_cons hblank]
  dsimp only
  rw [if_pos hc, bind_eq_ok]
  constructor
  · rintro ⟨⟨m, t⟩, hnumber, hm⟩
    dsimp only at hm
    split at hm
    · split at hm
      · rename_i hle
        obtain ⟨rfl, rfl⟩ := Prod.mk.inj (Except.ok.inj hm)
        exact ⟨hnumber, hle⟩
      · cases hm
    · cases hm
    · cases hm
  · rintro ⟨hnumber, hle⟩
    exact ⟨_, hnumber, if_pos hle⟩

theorem natural_of_other {kind : String} {bound : Nat} {c : Char} {s : List Char}
    (hblank : isBlank c = false) (hc : ¬ (c = '-' ∨ c.isDigit)) :
    natural kind bound (c :: s) = .error (wrongKind kind (c :: s)) := by
  unfold natural
  rw [skipBlanks_cons hblank]
  exact if_neg hc

theorem natural_exact (kind : String) (bound : Nat) : Exact (natural kind bound) := by
  intro text rest r n htext hrest hread
  obtain ⟨c, t, rfl, hblank, -⟩ := htext.head
  by_cases hc : c = '-' ∨ c.isDigit
  · obtain ⟨sign, body, hsign, hbody, heq⟩ := htext.number_inv hc
    obtain ⟨outcome, hout⟩ := number_text hsign hbody
    have hnatural (rest : List Char) (hrest : Delimited rest) (r : List Char) :
        natural kind bound (c :: t ++ rest) = .ok (n, r) ↔
          outcome.map (fun m => (m, rest)) = .ok (.natural n, r) ∧ n.toNat ≤ bound := by
      rw [List.cons_append, natural_of_number hblank hc, ← List.cons_append, heq,
        List.append_assoc, hout rest hrest]
    obtain ⟨hnumber, hle⟩ := (hnatural rest hrest r).mp hread
    cases outcome with
    | error e => cases hnumber
    | ok m =>
      obtain ⟨rfl, rfl⟩ := Prod.mk.inj (Except.ok.inj hnumber)
      exact ⟨rfl, fun rest' hrest' => (hnatural rest' hrest' rest').mpr ⟨rfl, hle⟩⟩
  · rw [List.cons_append, natural_of_other hblank hc] at hread
    cases hread

/-! ### Strings -/

/-- An accepted escape by code units is one unit, or the first of a pair. -/
theorem escape_unit_cases {n : Nat} {digits s t : List Char} {d : Char} (hn : UnitText n digits)
    (h : escape ('u' :: (digits ++ s)) = .ok (d, t)) :
    isTrailing n = false ∧
      (isLeading n = false ∧ d = Char.ofNat n ∧ t = s ∨
        isLeading n = true ∧ ∃ m, trailingUnit s = .ok (m, t) ∧ d = pairChar n m) := by
  change unitEscape (digits ++ s) = _ at h
  unfold unitEscape at h
  rw [codeUnit_text hn, ok_bind] at h
  dsimp only at h
  split at h
  · cases h
  · rename_i htrail
    refine ⟨by simpa using htrail, ?_⟩
    split at h
    · rename_i hlead
      obtain ⟨⟨m, t'⟩, hm, hok⟩ := bind_eq_ok.mp h
      obtain ⟨rfl, rfl⟩ := Prod.mk.inj (Except.ok.inj hok)
      exact Or.inr ⟨hlead, m, hm, rfl⟩
    · rename_i hlead
      obtain ⟨rfl, rfl⟩ := Prod.mk.inj (Except.ok.inj h)
      exact Or.inl ⟨by simpa using hlead, rfl, rfl⟩

/-- The second unit of a pair is the escape that comes next in the literal. -/
theorem trailingUnit_shaped {text rest t : List Char} {m : Nat} (htext : Shaped text)
    (h : trailingUnit (text ++ '"' :: rest) = .ok (m, t)) :
    ∃ digits more, text = '\\' :: 'u' :: (digits ++ more) ∧ UnitText m digits ∧
      isTrailing m = true ∧ Shaped more ∧ t = more ++ '"' :: rest := by
  cases htext with
  | nil => cases h
  | @plain c text hc _ =>
    have hne : c ≠ '\\' := by
      rintro rfl
      cases hc
    unfold trailingUnit at h
    rw [List.cons_append] at h
    split at h <;> simp_all [malformed]
  | @letter l text hl _ =>
    have hne : l ≠ 'u' := by
      rintro rfl
      cases hl
    unfold trailingUnit at h
    rw [List.cons_append, List.cons_append] at h
    split at h <;> simp_all [malformed]
  | @unit n digits text hn htext =>
    change (codeUnit ((digits ++ text) ++ '"' :: rest) >>= _) = _ at h
    rw [List.append_assoc, codeUnit_text hn, ok_bind] at h
    dsimp only at h
    split at h
    · rename_i htrail
      obtain ⟨rfl, rfl⟩ := Prod.mk.inj (Except.ok.inj h)
      exact ⟨digits, text, rfl, hn, htrail, htext, rfl⟩
    · cases h

theorem spelled_of_stringChars {fuel : Nat} {text rest cs r : List Char} (htext : Shaped text)
    (h : stringChars fuel (text ++ '"' :: rest) = .ok (cs, r)) : Spelled cs text ∧ r = rest := by
  induction fuel generalizing text cs with
  | zero => cases h
  | succ fuel ih =>
    cases htext with
    | nil =>
      obtain ⟨rfl, rfl⟩ := Prod.mk.inj (Except.ok.inj h)
      exact ⟨.nil, rfl⟩
    | plain hc htext =>
      rw [List.cons_append, stringChars_plain_cons hc] at h
      obtain ⟨⟨ds, t⟩, hds, hok⟩ := bind_eq_ok.mp h
      obtain ⟨rfl, rfl⟩ := Prod.mk.inj (Except.ok.inj hok)
      obtain ⟨hspelled, rfl⟩ := ih htext hds
      exact ⟨.plain hc hspelled, rfl⟩
    | letter hl htext =>
      obtain ⟨d, hd⟩ := Option.isSome_iff_exists.mp hl
      rw [List.cons_append, List.cons_append, stringChars_backslash] at h
      obtain ⟨⟨d', t⟩, hescape, h⟩ := bind_eq_ok.mp h
      rw [escape_letter hd] at hescape
      obtain ⟨rfl, rfl⟩ := Prod.mk.inj (Except.ok.inj hescape)
      obtain ⟨⟨ds, t⟩, hds, hok⟩ := bind_eq_ok.mp h
      obtain ⟨rfl, rfl⟩ := Prod.mk.inj (Except.ok.inj hok)
      obtain ⟨hspelled, rfl⟩ := ih htext hds
      exact ⟨.letter hd hspelled, rfl⟩
    | unit hn htext =>
      rw [List.cons_append, List.cons_append, List.append_assoc, stringChars_backslash] at h
      obtain ⟨⟨d, t⟩, hescape, h⟩ := bind_eq_ok.mp h
      obtain ⟨⟨ds, t'⟩, hds, hok⟩ := bind_eq_ok.mp h
      obtain ⟨rfl, rfl⟩ := Prod.mk.inj (Except.ok.inj hok)
      obtain ⟨htrail, ⟨hlead, hd, rfl⟩ | ⟨hlead, m, hm, hd⟩⟩ := escape_unit_cases hn hescape
      · obtain ⟨hspelled, rfl⟩ := ih htext hds
        exact ⟨hd ▸ .unit hn hlead htrail hspelled, rfl⟩
      · -- two escapes are one character
        obtain ⟨digits, more, rfl, hdigits, hclose, hmore, rfl⟩ := trailingUnit_shaped htext hm
        obtain ⟨hspelled, rfl⟩ := ih hmore hds
        exact ⟨hd ▸ .pair hn hdigits hlead hclose hspelled, rfl⟩

/-- **An accepted literal spells the string that is read from it.** -/
theorem spelled_of_string {text rest r : List Char} {s : String} (htext : Shaped text)
    (h : string (text ++ '"' :: rest) = .ok (s, r)) : Spelled s.toList text ∧ r = rest := by
  obtain ⟨⟨cs, t⟩, hcs, hok⟩ := bind_eq_ok.mp h
  obtain ⟨rfl, rfl⟩ := Prod.mk.inj (Except.ok.inj hok)
  rw [String.toList_ofList]
  exact spelled_of_stringChars htext hcs

/-! ### Lists -/

theorem itemTexts_of_items {item : Reader α} (hitem : Exact item) {first : Bool}
    {ts : List (List Char)} {text rest s : List Char} {fuel : Nat} {as : List α}
    (h : Laid ']' Eq first ts text) (hts : ∀ t ∈ ts, Formed t)
    (hread : items item fuel first (text ++ rest) = .ok (as, s)) :
    Laid ']' (ItemText item) first as text := by
  induction h generalizing fuel as s with
  | close hw =>
    cases fuel with
    | zero => cases hread
    | succ fuel =>
      unfold items at hread
      rw [List.append_assoc, List.singleton_append, nextItem_close _ hw] at hread
      obtain ⟨rfl, rfl⟩ := Prod.mk.inj (Except.ok.inj hread)
      exact .close hw
  | @part first w text more t ts hw ht hmore ih =>
    subst ht
    cases fuel with
    | zero => cases hread
    | succ fuel =>
      have hformed := hts t (List.mem_cons_self ..)
      obtain ⟨c, t', rfl, hc, hbracket⟩ := hformed.head
      unfold items at hread
      rw [List.append_assoc, List.append_assoc, List.cons_append, nextItem_part hw hc hbracket,
        ← List.cons_append, ok_bind] at hread
      obtain ⟨⟨a, r⟩, ha, hread⟩ := bind_eq_ok.mp hread
      obtain ⟨rfl, hreads⟩ := hitem hformed (hmore.delimited (Or.inl rfl) rest) ha
      obtain ⟨⟨as', r'⟩, has, hok⟩ := bind_eq_ok.mp hread
      obtain ⟨rfl, rfl⟩ := Prod.mk.inj (Except.ok.inj hok)
      exact .part hw ⟨⟨c, t', rfl, hc, hbracket⟩, hreads⟩
        (ih (fun t ht => hts t (List.mem_cons_of_mem _ ht)) has)

theorem list_of_other {item : Reader α} {c : Char} (hc : isBlank c = false) (hlist : c ≠ '[')
    (s : List Char) : list item (c :: s) = .error (wrongKind "a sequence" (c :: s)) := by
  unfold list
  rw [skipBlanks_cons hc]
  split <;> simp_all

theorem list_exact {item : Reader α} (hitem : Exact item) : Exact (list item) := by
  intro text rest r as htext hrest hread
  obtain ⟨c, t, rfl, hc, -⟩ := htext.head
  by_cases hlist : c = '['
  · subst hlist
    obtain ⟨ts, hts, hlaid⟩ := htext.list_inv
    have hitems := hread
    unfold list at hitems
    rw [List.cons_append, skipBlanks_cons (by decide)] at hitems
    obtain ⟨⟨as', s⟩, hs, -⟩ := bind_eq_ok.mp hitems
    exact exact_of_reads hrest hread (list_reads (itemTexts_of_items hitem hlaid hts hs))
  · rw [List.cons_append, list_of_other hc hlist] at hread
    cases hread

/-! ### Choices -/

theorem null_of_nothing {w text rest r : List Char} (hw : Blanks w) (htext : Formed text)
    (h : nothing (w ++ (text ++ rest)) = .ok r) :
    text = ['n', 'u', 'l', 'l'] ∧ r = rest := by
  obtain ⟨c, t, rfl, hc, -⟩ := htext.head
  unfold nothing at h
  rw [List.cons_append, skipBlanks_append hw hc] at h
  by_cases hnull : c = 'n'
  · subst hnull
    obtain rfl := htext.null_inv
    exact ⟨rfl, (Except.ok.inj h).symm⟩
  · split at h <;> simp_all

theorem Choice.read_other {choice : Choice α} {c : Char} (hc : isBlank c = false)
    (hquote : c ≠ '"') (hbrace : c ≠ '\x7b') (s : List Char) :
    choice.read (c :: s) = malformed .valueWanted := by
  unfold Choice.read
  rw [skipBlanks_cons hc]
  split <;> simp_all

theorem Choice.name_of_read {choice : Choice α} {text rest r : List Char} {a : α}
    (htext : Shaped text) (h : choice.read ('"' :: (text ++ '"' :: rest)) = .ok (a, r)) :
    ∃ name, Spelled name.toList text ∧ choice.pick name = .ok a := by
  unfold Choice.read at h
  rw [skipBlanks_cons (by decide)] at h
  obtain ⟨⟨name, t⟩, hname, h⟩ := bind_eq_ok.mp h
  obtain ⟨b, hpick, hok⟩ := bind_eq_ok.mp h
  obtain ⟨rfl, rfl⟩ := Prod.mk.inj (Except.ok.inj hok)
  exact ⟨name, (spelled_of_string htext hname).1, hpick⟩

/-- A choice by an object is made by one member, whose key spells the name and whose value is
`null`. -/
theorem Choice.member_of_read {choice : Choice α} {ms : List RawMember} {text rest r : List Char}
    {a : α} (hms : ∀ m ∈ ms, Formed m.value) (htext : Laid '\x7d' RawMember.Text true ms text)
    (h : choice.read ('\x7b' :: (text ++ rest)) = .ok (a, r)) :
    ∃ name key w v v' w', Spelled name.toList key ∧ choice.pick name = .ok a ∧ Blanks w ∧
      Blanks v ∧ Blanks v' ∧ Blanks w' ∧
      text = w ++ '"' :: ((key ++ ['"']) ++ (v ++ ':' :: (v' ++ 'n' :: 'u' :: 'l' :: 'l' ::
        (w' ++ ['\x7d'])))) := by
  unfold Choice.read at h
  rw [skipBlanks_cons (by decide)] at h
  cases htext with
  | close hw =>
    simp only [List.append_assoc, List.singleton_append, nextKey_close _ hw, ok_bind] at h
    cases h
  | @part _ w part more m ms hw hm hmore =>
    obtain ⟨hkey, v, v', hv, hv', rfl⟩ := hm
    have hvalue := hms m (List.mem_cons_self ..)
    simp only [List.append_assoc, List.cons_append, nextKey_part hw, ok_bind] at h
    obtain ⟨⟨name, t⟩, hname, h⟩ := bind_eq_ok.mp h
    obtain ⟨hspelled, rfl⟩ := spelled_of_string hkey hname
    obtain ⟨b, hpick, h⟩ := bind_eq_ok.mp h
    dsimp only at h
    rw [colon_blanks hv, ok_bind] at h
    obtain ⟨t, hnothing, h⟩ := bind_eq_ok.mp h
    obtain ⟨hnull, rfl⟩ := null_of_nothing hv' hvalue hnothing
    cases hmore with
    | @close _ w' hw' =>
      rw [List.append_assoc, List.singleton_append, skipBlanks_append hw' (by decide)] at h
      obtain ⟨rfl, rfl⟩ := Prod.mk.inj (Except.ok.inj h)
      refine ⟨name, m.key, w, v, v', w', hspelled, hpick, hw, hv, hv', hw', ?_⟩
      simp only [hnull, List.append_assoc, List.cons_append, List.nil_append]
    | part hsep _ _ =>
      -- a second member is refused at its comma
      obtain ⟨v, v', hv, -, rfl⟩ := hsep
      rw [List.append_assoc, List.append_assoc, List.cons_append,
        skipBlanks_append hv (by decide)] at h
      cases h

theorem Choice.exact (choice : Choice α) : Exact choice.read := by
  intro text rest r a htext hrest hread
  obtain ⟨c, t, rfl, hc, -⟩ := htext.head
  by_cases hquote : c = '"'
  · subst hquote
    obtain ⟨body, hbody, rfl⟩ := htext.string_inv
    have hname := hread
    rw [List.cons_append, List.append_assoc] at hname
    obtain ⟨name, hspelled, hpick⟩ := Choice.name_of_read hbody hname
    exact exact_of_reads hrest hread
      (Choice.reads (literal_of_spelled ⟨body, hspelled, rfl⟩) hpick)
  by_cases hbrace : c = '\x7b'
  · subst hbrace
    obtain ⟨ms, hms, hlaid⟩ := htext.object_inv
    obtain ⟨name, key, w, v, v', w', hspelled, hpick, hw, hv, hv', hw', rfl⟩ :=
      Choice.member_of_read hms hlaid hread
    exact exact_of_reads hrest hread
      (Choice.reads_object (literal_of_spelled ⟨key, hspelled, rfl⟩) hpick hw hv hv' hw')
  · rw [List.cons_append, Choice.read_other hc hquote hbrace] at hread
    cases hread

end LossRelay.Json
