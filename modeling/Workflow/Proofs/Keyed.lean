import Mathlib.Data.List.Induction
import Mathlib.Data.String.Basic
import Workflow.Keyed

/-!
# Laws of collections in key order

What a collection has under a key, and which keys it has, after pairs were put in or a key was left
out.  A collection that is put together again from its own pairs is the same.
-/

namespace Workflow.Keyed

variable {β : Type} {key other id : String} {value : β} {fields : Keyed β}

/-! ### Keys -/

theorem mem_keys_insert : id ∈ keys (insert key value fields) ↔ id = key ∨ id ∈ keys fields := by
  induction fields with
  | nil => simp [insert, keys]
  | cons field rest ih =>
      obtain ⟨k, v⟩ := field
      have hrest : id ∈ (insert key value rest).map Prod.fst ↔
          id = key ∨ id ∈ rest.map Prod.fst := ih
      by_cases hlt : key < k
      · simp [insert, hlt, keys]
      · by_cases heq : key = k
        · subst heq
          simp [insert, keys]
        · simp only [insert, hlt, heq, if_false, keys, List.map_cons, List.mem_cons, hrest]
          tauto

/-! ### Members -/

theorem mem_of_get? (h : get? key fields = some value) : (key, value) ∈ fields := by
  induction fields with
  | nil => cases h
  | cons field rest ih =>
      obtain ⟨k, v⟩ := field
      by_cases hk : k = key
      · rw [get?, if_pos hk] at h
        rw [hk, ← Option.some.inj h]
        exact List.mem_cons_self
      · rw [get?, if_neg hk] at h
        exact List.mem_cons_of_mem _ (ih h)

theorem mem_keys_of_get? (h : get? key fields = some value) : key ∈ keys fields :=
  List.mem_map_of_mem (f := Prod.fst) (mem_of_get? h)

theorem exists_get? (h : key ∈ keys fields) : ∃ value, get? key fields = some value := by
  induction fields with
  | nil => cases h
  | cons field rest ih =>
      obtain ⟨k, v⟩ := field
      by_cases hk : k = key
      · exact ⟨v, if_pos hk⟩
      · obtain ⟨value, hvalue⟩ := ih ((List.mem_cons.mp h).resolve_left (Ne.symm hk))
        exact ⟨value, (if_neg hk).trans hvalue⟩

theorem isSome_get? : (get? key fields).isSome = true ↔ key ∈ keys fields := by
  rw [Option.isSome_iff_exists]
  exact ⟨fun ⟨_, h⟩ => mem_keys_of_get? h, exists_get?⟩

theorem get?_of_notMem (h : key ∉ keys fields) : get? key fields = none := by
  rw [← isSome_get?, Option.not_isSome_iff_eq_none] at h
  exact h

theorem mem_insert {field : String × β} (h : field ∈ insert key value fields) :
    field = (key, value) ∨ field ∈ fields := by
  induction fields with
  | nil => exact .inl (List.mem_singleton.mp h)
  | cons other fields ih =>
      obtain ⟨k, v⟩ := other
      rw [insert] at h
      split at h
      · exact List.mem_cons.mp h
      · split at h
        · exact (List.mem_cons.mp h).imp id (List.mem_cons_of_mem _)
        · rcases List.mem_cons.mp h with rfl | h
          · exact .inr List.mem_cons_self
          · exact (ih h).imp id (List.mem_cons_of_mem _)

theorem mem_insertAll {pairs : List (String × β)} {field : String × β}
    (h : field ∈ insertAll fields pairs) : field ∈ fields ∨ field ∈ pairs := by
  induction pairs generalizing fields with
  | nil => exact .inl h
  | cons pair pairs ih =>
      rcases ih h with h | h
      · rcases mem_insert h with rfl | h
        · exact .inr List.mem_cons_self
        · exact .inl h
      · exact .inr (List.mem_cons_of_mem _ h)

theorem mem_of_mem_ofList {pairs : List (String × β)} {field : String × β}
    (h : field ∈ ofList pairs) : field ∈ pairs :=
  (mem_insertAll h).resolve_left List.not_mem_nil

/-! ### Order -/

theorem ordered_cons {field : String × β} :
    Ordered (field :: fields) ↔ (∀ k ∈ keys fields, field.1 < k) ∧ Ordered fields :=
  List.pairwise_cons

theorem Ordered.nodup (h : Ordered fields) : (keys fields).Nodup :=
  h.imp fun hlt => ne_of_lt hlt

theorem Ordered.insert (h : Ordered fields) : Ordered (insert key value fields) := by
  induction fields with
  | nil => exact List.pairwise_singleton _ _
  | cons field rest ih =>
      obtain ⟨k, v⟩ := field
      obtain ⟨hk, hrest⟩ := ordered_cons.mp h
      rw [Keyed.insert]
      split
      · next hlt =>
        refine ordered_cons.mpr ⟨fun k' hk' => ?_, h⟩
        rcases List.mem_cons.mp hk' with rfl | hk'
        · exact hlt
        · exact lt_trans hlt (hk k' hk')
      · next hle =>
        split
        · next heq =>
          subst heq
          exact ordered_cons.mpr ⟨hk, hrest⟩
        · next hne =>
          refine ordered_cons.mpr ⟨fun k' hk' => ?_, ih hrest⟩
          rcases mem_keys_insert.mp hk' with rfl | hk'
          · exact lt_of_le_of_ne (not_lt.mp hle) (Ne.symm hne)
          · exact hk k' hk'

theorem insert_eq_append (h : ∀ k ∈ keys fields, k < key) :
    insert key value fields = fields ++ [(key, value)] := by
  induction fields with
  | nil => rfl
  | cons field rest ih =>
      obtain ⟨k, v⟩ := field
      have hk : k < key := h k List.mem_cons_self
      rw [insert, if_neg (lt_asymm hk), if_neg (ne_of_gt hk),
        ih fun k' hk' => h k' (List.mem_cons_of_mem k hk')]
      rfl

theorem insertAll_eq_append {pairs : List (String × β)} (h : Ordered (fields ++ pairs)) :
    insertAll fields pairs = fields ++ pairs := by
  induction pairs generalizing fields with
  | nil => simp [insertAll]
  | cons pair pairs ih =>
      have hlast : ∀ k ∈ keys fields, k < pair.1 := by
        intro k hk
        rw [Ordered, keys, List.map_append, List.pairwise_append] at h
        exact h.2.2 k hk pair.1 List.mem_cons_self
      have hrest : Ordered ((fields ++ [pair]) ++ pairs) := by
        rwa [List.append_assoc, List.singleton_append]
      rw [insertAll, List.foldl_cons, insert_eq_append hlast]
      exact (ih hrest).trans (List.append_assoc fields [pair] pairs)

/-- An ordered collection is made of its own pairs. -/
theorem ofList_eq_self (h : Ordered fields) : ofList fields = fields := insertAll_eq_append h

theorem ordered_ofList (pairs : List (String × β)) : Ordered (ofList pairs) := by
  have hall (fields : Keyed β) (h : Ordered fields) : Ordered (insertAll fields pairs) := by
    induction pairs generalizing fields with
    | nil => exact h
    | cons pair pairs ih => exact ih _ h.insert
  exact hall [] List.Pairwise.nil

/-! ### Values -/

/-- Of several values for a key, the last one counts. -/
theorem get?_ofList (pairs : List (String × β)) :
    get? key (ofList pairs) = pairs.reverse.lookup key := by
  induction pairs using List.reverseRecOn with
  | nil => rfl
  | append_singleton pairs pair ih =>
      rw [ofList, insertAll, List.foldl_append, List.foldl_cons, List.foldl_nil,
        List.reverse_append, List.reverse_singleton, List.singleton_append, List.lookup_cons]
      by_cases hkey : key = pair.1
      · rw [hkey, get?_insert_self, beq_self_eq_true]
      · rw [get?_insert_of_ne _ _ hkey, beq_eq_false_iff_ne.mpr hkey]
        exact ih

theorem get?_erase_of_ne (h : other ≠ key) : get? other (erase key fields) = get? other fields := by
  induction fields with
  | nil => rfl
  | cons field rest ih =>
      obtain ⟨k, v⟩ := field
      rw [erase, List.filter_cons]
      by_cases hk : k = key
      · rw [if_neg (by simpa using hk), get?, if_neg (fun hko => h (hko.symm.trans hk))]
        exact ih
      · rw [if_pos (by simpa using hk), get?, get?]
        split
        · rfl
        · exact ih

theorem nodup_keys_erase (h : (keys fields).Nodup) : (keys (erase key fields)).Nodup :=
  h.sublist (List.filter_sublist.map Prod.fst)

theorem Ordered.erase (h : Ordered fields) : Ordered (erase key fields) :=
  h.sublist (List.filter_sublist.map Prod.fst)

theorem mem_of_mem_erase {field : String × β} (h : field ∈ erase key fields) : field ∈ fields :=
  List.mem_of_mem_filter h

theorem mem_keys_erase_of_ne (h : id ≠ key) (hid : id ∈ keys fields) :
    id ∈ keys (erase key fields) := by
  obtain ⟨field, hfield, rfl⟩ := List.mem_map.mp hid
  exact List.mem_map_of_mem (List.mem_filter.mpr ⟨hfield, bne_iff_ne.mpr h⟩)

theorem erase_eq_self (h : key ∉ keys fields) : erase key fields = fields := by
  refine List.filter_eq_self.mpr fun field hfield => bne_iff_ne.mpr ?_
  rintro rfl
  exact h (List.mem_map_of_mem hfield)

/-! ### Mapped values -/

variable {γ : Type}

theorem keys_mapValues (f : β → γ) (fields : Keyed β) :
    keys (mapValues f fields) = keys fields := by
  simp [keys, mapValues]

theorem get?_mapValues (f : β → γ) (fields : Keyed β) :
    get? key (mapValues f fields) = (get? key fields).map f := by
  induction fields with
  | nil => rfl
  | cons field rest ih =>
      obtain ⟨k, v⟩ := field
      change get? key ((k, f v) :: mapValues f rest) = _
      rw [get?, get?]
      split
      · rfl
      · exact ih

end Workflow.Keyed
