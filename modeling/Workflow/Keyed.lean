/-!
# Lists kept in key order

A collection of values under text keys is a list of pairs in strictly increasing
key order, the order of code points.  Inserting keeps the order and replaces the
value of a key that is there already, so a collection has one list.
-/

namespace Workflow

abbrev Keyed.{u} (β : Type u) := List (String × β)

namespace Keyed

universe u v

variable {β : Type u} {γ : Type v}

def get? (key : String) : Keyed β → Option β
  | [] => none
  | (k, v) :: rest => if k = key then some v else get? key rest

def has (key : String) (fields : Keyed β) : Bool := (get? key fields).isSome

def insert (key : String) (value : β) : Keyed β → Keyed β
  | [] => [(key, value)]
  | (k, v) :: rest =>
    if key < k then (key, value) :: (k, v) :: rest
    else if key = k then (key, value) :: rest
    else (k, v) :: insert key value rest

/-- The collection without a key. -/
def erase (key : String) (fields : Keyed β) : Keyed β :=
  fields.filter fun field => field.1 != key

/-- A collection with the pairs of a list put in one after another: of two values for
a key the later one stays. -/
def insertAll (fields : Keyed β) (pairs : List (String × β)) : Keyed β :=
  pairs.foldl (fun acc pair => insert pair.1 pair.2 acc) fields

def ofList (pairs : List (String × β)) : Keyed β := insertAll [] pairs

def keys (fields : Keyed β) : List String := fields.map Prod.fst

def mapValues (f : β → γ) (fields : Keyed β) : Keyed γ :=
  fields.map fun field => (field.1, f field.2)

def Ordered (fields : Keyed β) : Prop := (keys fields).Pairwise (· < ·)

@[simp] theorem get?_nil (key : String) : get? key ([] : Keyed β) = none := rfl

@[simp] theorem get?_insert_self (key : String) (value : β) (fields : Keyed β) :
    get? key (insert key value fields) = some value := by
  induction fields with
  | nil => simp [insert, get?]
  | cons field rest ih =>
    obtain ⟨k, v⟩ := field
    simp only [insert]
    split
    · simp [get?]
    · split
      · simp [get?]
      · next hne => simp [get?, Ne.symm hne, ih]

theorem get?_insert_of_ne {key other : String} (value : β) (fields : Keyed β)
    (h : other ≠ key) : get? other (insert key value fields) = get? other fields := by
  induction fields with
  | nil => simp [insert, get?, Ne.symm h]
  | cons field rest ih =>
    obtain ⟨k, v⟩ := field
    simp only [insert]
    split
    · simp [get?, Ne.symm h]
    · split
      · next heq => subst heq; simp [get?, Ne.symm h]
      · simp [get?, ih]

end Keyed

end Workflow
