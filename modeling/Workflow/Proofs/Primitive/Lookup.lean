import Mathlib.Data.List.Nodup
import Workflow.Local
import Workflow.Primitive.Adapter
import Workflow.Proofs.Run.Note
import Workflow.Store.Memory

/-!
# Looking up primitives

A primitive is called by its identifier or by its name.  Both kinds of reference are looked up in
one way: first among the primitives that are kept, and then among the rows of the store.
-/

namespace Workflow

/-! ### Rows -/

/-- No two rows of primitives have the same identifier, or the same name. -/
structure PrimitiveRow.Distinct (rows : List PrimitiveRow) : Prop where
  ids : (rows.map PrimitiveRow.id).Nodup
  names : (rows.map PrimitiveRow.name).Nodup

/-- Among rows that differ in something, the one that has it is found by it. -/
theorem PrimitiveRow.find?_of_nodup {γ : Type} [DecidableEq γ] {rows : List PrimitiveRow}
    {f : PrimitiveRow → γ} (h : (rows.map f).Nodup) {row : PrimitiveRow} (hrow : row ∈ rows) :
    rows.find? (fun other => f other = f row) = some row := by
  cases hfound : rows.find? (fun other => f other = f row) with
  | none =>
      have hother := List.find?_eq_none.mp hfound row hrow
      simp at hother
  | some other =>
      have hother : f other = f row := by simpa using List.find?_some hfound
      rw [List.inj_on_of_nodup_map h (List.mem_of_find?_eq_some hfound) hrow hother]

theorem Primitive.ofRow_eq_ok {row : PrimitiveRow} {timeout : Nat} {p : Primitive}
    (h : Primitive.ofRow row timeout = .ok p) : p.id = row.id ∧ p.name = row.name := by
  rw [Primitive.ofRow] at h
  split at h
  · cases h
  · cases h
    exact ⟨rfl, rfl⟩

/-! ### References -/

namespace PrimitiveRef

/-- What the process has read before under a reference. -/
def cached : PrimitiveRef → LocalCall (Option Primitive)
  | .id uuid => .cached uuid
  | .name text => .cachedByName text

/-- What the store has under a reference. -/
def find : PrimitiveRef → StoreCall (Option PrimitiveRow)
  | .id uuid => .findPrimitive uuid
  | .name text => .findPrimitiveByName text

/-- Whether an identifier and a name are those that a primitive is called by. -/
def fits : PrimitiveRef → Uuid → String → Bool
  | .id wanted, uuid, _ => uuid = wanted
  | .name wanted, _, label => label = wanted

/-- The first row that a primitive is called by. -/
def row? (rows : List PrimitiveRow) : PrimitiveRef → Option PrimitiveRow
  | .id wanted => rows.find? fun row => row.id = wanted
  | .name wanted => rows.find? fun row => row.name = wanted

variable {rows : List PrimitiveRow} {reference : PrimitiveRef} {row : PrimitiveRow}

theorem row?_eq_some (h : PrimitiveRow.Distinct rows) (hrow : row ∈ rows)
    (hfits : reference.fits row.id row.name = true) : reference.row? rows = some row := by
  cases reference with
  | id wanted =>
      obtain rfl : row.id = wanted := by simpa [fits] using hfits
      exact PrimitiveRow.find?_of_nodup h.ids hrow
  | name wanted =>
      obtain rfl : row.name = wanted := by simpa [fits] using hfits
      exact PrimitiveRow.find?_of_nodup h.names hrow

theorem mem_of_row? (h : reference.row? rows = some row) : row ∈ rows := by
  cases reference with
  | id => exact List.mem_of_find?_eq_some h
  | name => exact List.mem_of_find?_eq_some h

theorem fits_of_row? (h : reference.row? rows = some row) :
    reference.fits row.id row.name = true := by
  cases reference with
  | id wanted => exact List.find?_some (p := fun row : PrimitiveRow => row.id = wanted) h
  | name wanted => exact List.find?_some (p := fun row : PrimitiveRow => row.name = wanted) h

/-- The process gives what it keeps under a reference, and stays as it is. -/
theorem answer_cached (reference : PrimitiveRef) (here : Local) :
    Local.answer reference.cached here =
      (here.cache.find? fun p => reference.fits p.id p.name, here) := by
  cases reference <;> rfl

/-- The store gives the first row under a reference, and counts the question. -/
theorem answer_find (reference : PrimitiveRef) (fresh : Uuid) (now : Time.Instant) (m : Memory) :
    Memory.answer fresh now reference.find m =
      (.ok (reference.row? m.primitives), { m with lookups := m.lookups + 1 }) := by
  cases reference <;> rfl

@[simp] theorem note?_cached : reference.cached.note? = none := by
  cases reference <;> rfl

@[simp] theorem note?_find (reply : Except StoreError (Option PrimitiveRow)) :
    reference.find.note? reply = none := by
  cases reference <;> rfl

end PrimitiveRef

/-! ### Lookups -/

namespace Adapter

variable {H : Type}

/-- What is read of a row, if there is one. -/
def reading (a : Adapter H) (reference : PrimitiveRef) :
    Option PrimitiveRow → Except PrimitiveError Primitive
  | none => .error (.notFound reference.text)
  | some row => Primitive.ofRow row a.defaultTimeout

/-- What a lookup gives that goes to the rows of the store. -/
def direct (a : Adapter H) (rows : List PrimitiveRow) (reference : PrimitiveRef) :
    Except PrimitiveError Primitive :=
  a.reading reference (reference.row? rows)

/-- A lookup goes to the store if the primitive is not kept. -/
theorem resolve_eq (a : Adapter H) (reference : PrimitiveRef) :
    a.resolve reference = .askHere reference.cached fun cached =>
      match cached with
      | some p => .done (.ok p)
      | none => .askStore reference.find (a.found reference) := by
  cases reference <;> rfl

end Adapter

end Workflow
