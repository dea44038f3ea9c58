import LossRelay.Json.Typed
import Mathlib.Data.List.Forall2

/-!
# Records of the same documents

A record stores the values of a document in a type of its own.  Two records with the same names that
store the same values in two types, one of which is computed from the other, read the same documents
with the same errors, and the one result is computed from the other (`Record.Converts.read`).
-/

namespace LossRelay.Json

variable {α β γ δ : Type}

/-- The outcome of a reader with its value converted. -/
def convert (h : β → α) (outcome : Except Error (β × List Char)) : Except Error (α × List Char) :=
  outcome.map fun p => (h p.1, p.2)

theorem bind_map {x : Except Error γ} {f : γ → Except Error β} {f' : γ → Except Error α}
    {g : β → α} (hf : ∀ c, f' c = (f c).map g) : (x >>= f') = (x >>= f).map g := by
  cases x with
  | error e => rfl
  | ok c => exact hf c

theorem convert_bind {h : β → α} {x : Except Error (β × List Char)}
    {k : β × List Char → Except Error γ} {k' : α × List Char → Except Error δ} {g : γ → δ}
    (hk : ∀ b r, k' (h b, r) = (k (b, r)).map g) : (convert h x >>= k') = (x >>= k).map g := by
  cases x with
  | error e => rfl
  | ok p => exact hk p.1 p.2

/-- Two fields of one name store the same values. -/
structure Field.Converts (h : β → α) (f : Field β) (f' : Field α) : Prop where
  name : f'.name = f.name
  read (b : β) (s : List Char) : f'.read (h b) s = convert h (f.read b s)

namespace Record

/-- Two records of the same names store the same values. -/
structure Converts (h : β → α) (rec : Record β) (rec' : Record α) : Prop where
  title : rec'.title = rec.title
  complete : rec'.complete = rec.complete
  start : rec'.start = h rec.start
  fields : List.Forall₂ (Field.Converts h) rec.fields rec'.fields

namespace Converts

variable {h : β → α} {rec : Record β} {rec' : Record α} {fs : List (Field β)}
  {fs' : List (Field α)}

theorem map_name (hfs : List.Forall₂ (Field.Converts h) fs fs') :
    fs'.map Field.name = fs.map Field.name := by
  induction hfs with
  | nil => rfl
  | cons hf _ ih => rw [List.map_cons, List.map_cons, hf.name, ih]

/-- The fields of a name are there in both records or in none. -/
theorem find? (hfs : List.Forall₂ (Field.Converts h) fs fs') (key : String) :
    ((fs.find? fun f => f.name == key) = none ∧ (fs'.find? fun f => f.name == key) = none) ∨
      ∃ f f', (fs.find? fun f => f.name == key) = some f ∧
        (fs'.find? fun f => f.name == key) = some f' ∧ Field.Converts h f f' := by
  induction hfs with
  | nil => exact Or.inl ⟨rfl, rfl⟩
  | @cons f f' fs fs' hf _ ih =>
    rw [List.find?_cons, List.find?_cons, hf.name]
    cases f.name == key with
    | true => exact Or.inr ⟨f, f', rfl, rfl, hf⟩
    | false => exact ih

theorem kind (hr : Converts h rec rec') : rec'.kind = rec.kind := by
  unfold Record.kind
  rw [hr.title]

theorem kindWithSize (hr : Converts h rec rec') : rec'.kindWithSize = rec.kindWithSize := by
  unfold Record.kindWithSize
  rw [hr.kind, hr.fields.length_eq]

theorem firstMissing (hr : Converts h rec rec') (seen : List String) :
    rec'.firstMissing seen = rec.firstMissing seen := by
  unfold Record.firstMissing
  rw [map_name hr.fields]

theorem readItems (hr : Converts h rec rec') (hfs : List.Forall₂ (Field.Converts h) fs fs')
    (count : Nat) (b : β) (s : List Char) :
    rec'.readItems fs' count (h b) s = convert h (rec.readItems fs count b s) := by
  induction hfs generalizing count b s with
  | nil => rfl
  | cons hf hfs ih =>
    refine bind_map fun next => ?_
    cases next with
    | none =>
      -- a list may be too short for a complete record
      dsimp only
      rw [hr.complete, hr.kindWithSize]
      split <;> rfl
    | some r =>
      dsimp only
      rw [hf.read]
      exact convert_bind fun b r => ih (count + 1) b r

theorem readMembers (hr : Converts h rec rec') (fuel : Nat) (seen : List String) (first : Bool)
    (b : β) (s : List Char) :
    rec'.readMembers fuel seen first (h b) s =
      convert (fun p => (h p.1, p.2)) (rec.readMembers fuel seen first b s) := by
  induction fuel generalizing seen first b s with
  | zero => rfl
  | succ fuel ih =>
    refine bind_map fun next => ?_
    cases next with
    | none => rfl
    | some r =>
      refine bind_map fun keyed => ?_
      dsimp only
      rcases find? hr.fields keyed.1 with ⟨hnone, hnone'⟩ | ⟨f, f', hsome, hsome', hf⟩
      · rw [hnone, hnone']
        exact bind_map fun r => bind_map fun r => ih seen false b r
      · rw [hsome, hsome']
        dsimp only
        split
        · rfl
        · refine bind_map fun r => ?_
          rw [hf.read]
          exact convert_bind fun b r => ih (keyed.1 :: seen) false b r

/-- **The two records read the same documents**, and the one result is computed from the other. -/
theorem read (hr : Converts h rec rec') (s : List Char) :
    rec'.read s = convert h (rec.read s) := by
  unfold Record.read
  split
  · rfl
  · rw [hr.start, hr.readItems hr.fields]
    exact convert_bind fun b r => bind_map fun r => rfl
  · rw [hr.start, hr.readMembers]
    refine convert_bind fun p r => ?_
    dsimp only
    rw [hr.firstMissing, hr.complete]
    split
    · split
      · rfl
      · exact bind_map fun r => rfl
    · exact bind_map fun r => rfl
  · rw [hr.kind]
    rfl

theorem document (hr : Converts h rec rec') (text : String) :
    document rec'.read text = (Json.document rec.read text).map h := by
  unfold Json.document
  rw [hr.read]
  refine convert_bind fun b r => ?_
  dsimp only
  split <;> rfl

end Converts

end Record

end LossRelay.Json
