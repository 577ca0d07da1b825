import Workflow.Json.Document
import Workflow.Proofs.Except
import Workflow.Proofs.Keyed

/-!
# Documents of values

A value is written as a document without faults.  Setting the document aside keeps all of it but
where it came from, and the value is read back from it if its objects are in key order.
-/

namespace Workflow.Json

/-- Whether all objects in a value are in key order, without repeated keys. -/
inductive Ordered : Json → Prop
  | null : Ordered .null
  | bool (b : Bool) : Ordered (.bool b)
  | num (n : Number) : Ordered (.num n)
  | str (s : String) : Ordered (.str s)
  | arr {items : List Json} (hitems : ∀ v ∈ items, Ordered v) : Ordered (.arr items)
  | obj {fields : Keyed Json} (hkeys : Keyed.Ordered fields)
      (hfields : ∀ field ∈ fields, Ordered field.2) : Ordered (.obj fields)

namespace Document

variable {o o' : Origin} {v : Json} {key : String}

theorem ofItems_eq_map (o : Origin) (items : List Json) :
    ofItems o items = items.map (ofJson o) := by
  induction items with
  | nil => rfl
  | cons v items ih => rw [ofItems, ih, List.map_cons]

/-! ### Reading back -/

theorem itemValues_ofItems {items : List Json}
    (h : ∀ v ∈ items, toJson (ofJson o v) = .ok v) : itemValues (ofItems o items) = .ok items := by
  induction items with
  | nil => rfl
  | cons v items ih =>
      rw [ofItems, itemValues, h v List.mem_cons_self,
        ih fun w hw => h w (List.mem_cons_of_mem v hw)]
      rfl

theorem memberValues_ofFields {fields : List (String × Json)}
    (h : ∀ field ∈ fields, toJson (ofJson o field.2) = .ok field.2) :
    memberValues (ofFields o fields) = .ok fields := by
  induction fields with
  | nil => rfl
  | cons field fields ih =>
      obtain ⟨k, v⟩ := field
      rw [ofFields, memberValues, h (k, v) List.mem_cons_self,
        ih fun other hother => h other (List.mem_cons_of_mem _ hother)]
      rfl

/-- A value in key order is read back from its document. -/
theorem toJson_ofJson (h : v.Ordered) : toJson (ofJson o v) = .ok v := by
  induction h with
  | null => rfl
  | bool b => rfl
  | num n => rfl
  | str s => rfl
  | arr _ ih =>
      rw [ofJson, toJson, itemValues_ofItems ih]
      rfl
  | obj hkeys _ ih =>
      rw [ofJson, toJson, memberValues_ofFields ih]
      simp only [bind, Except.bind, ofPairs, Keyed.ofList_eq_self hkeys]

/-! ### Setting aside -/

mutual

theorem buffer_ofJson (v : Json) : buffer (ofJson o v) = .ok (ofJson .buffered v) := by
  cases v with
  | null => rfl
  | bool b => rfl
  | num n => rfl
  | str s => rfl
  | arr items =>
      rw [ofJson, buffer, bufferItems_ofItems items]
      rfl
  | obj fields =>
      rw [ofJson, buffer, bufferMembers_ofFields fields]
      rfl

theorem bufferItems_ofItems (items : List Json) :
    bufferItems (ofItems o items) = .ok (ofItems .buffered items) := by
  cases items with
  | nil => rfl
  | cons v items =>
      rw [ofItems, bufferItems, buffer_ofJson v, bufferItems_ofItems items]
      rfl

theorem bufferMembers_ofFields (fields : List (String × Json)) :
    bufferMembers (ofFields o fields) = .ok (ofFields .buffered fields) := by
  cases fields with
  | nil => rfl
  | cons field fields =>
      obtain ⟨k, v⟩ := field
      rw [ofFields, bufferMembers, buffer_ofJson v, bufferMembers_ofFields fields]
      rfl

end

/-! ### Depth -/

mutual

theorem depth_ofJson (v : Json) : (ofJson o v).depth = (ofJson o' v).depth := by
  cases v with
  | null => rfl
  | bool b => rfl
  | num n => rfl
  | str s => rfl
  | arr items => rw [ofJson, ofJson, depth, depth, depthItems_ofItems items]
  | obj fields => rw [ofJson, ofJson, depth, depth, depthMembers_ofFields fields]

theorem depthItems_ofItems (items : List Json) :
    depthItems (ofItems o items) = depthItems (ofItems o' items) := by
  cases items with
  | nil => rfl
  | cons v items =>
      rw [ofItems, ofItems, depthItems, depthItems, depth_ofJson v, depthItems_ofItems items]

theorem depthMembers_ofFields (fields : List (String × Json)) :
    depthMembers (ofFields o fields) = depthMembers (ofFields o' fields) := by
  cases fields with
  | nil => rfl
  | cons field fields =>
      obtain ⟨k, v⟩ := field
      rw [ofFields, ofFields, depthMembers, depthMembers, depth_ofJson v,
        depthMembers_ofFields fields]

end

theorem depth_lt_of_mem {items : List Json} (h : v ∈ items) :
    (ofJson o v).depth < (ofJson o (.arr items)).depth := by
  rw [ofJson, depth, Nat.lt_succ_iff]
  induction items with
  | nil => cases h
  | cons w items ih =>
      rw [ofItems, depthItems]
      rcases List.mem_cons.mp h with rfl | h
      · exact le_max_left _ _
      · exact (ih h).trans (le_max_right _ _)

theorem depth_lt_of_get? {fields : Keyed Json} (h : Keyed.get? key fields = some v) :
    (ofJson o v).depth < (ofJson o (.obj fields)).depth := by
  rw [ofJson, depth, Nat.lt_succ_iff]
  induction fields with
  | nil => cases h
  | cons field fields ih =>
      obtain ⟨k, w⟩ := field
      rw [ofFields, depthMembers]
      by_cases hk : k = key
      · rw [Keyed.get?, if_pos hk] at h
        cases h
        exact le_max_left _ _
      · rw [Keyed.get?, if_neg hk] at h
        exact (ih h).trans (le_max_right _ _)

end Document

end Workflow.Json
