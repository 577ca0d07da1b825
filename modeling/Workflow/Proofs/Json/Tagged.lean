import Workflow.Proofs.Json.Reads

/-!
# Choices in what was set aside

A tagged choice is more than its documented form, an object with the name of a variant under the
tag.  Where the value was set aside before, the tag may also be the index of the variant, and in
place of the object there may be an array: the tag, and then the fields of the variant in order.
Here is all that a tagged choice, and a record of one field, decode from a value that was set
aside.
-/

namespace Workflow.Json

variable {α β : Type} {fields : Keyed Json} {key : String}

/-! ### Tags -/

/-- The variant that has a name. -/
def ofName? (variants : List (String × α)) : Json → Option α
  | .str name => variants.lookup name
  | _ => none

/-- The variant that has an index. -/
def ofIndex? (variants : List (String × α)) : Json → Option α
  | .num (.whole i) => if 0 ≤ i then variants[i.toNat]?.map Prod.snd else none
  | _ => none

/-- The variant that a tag stands for: by its name, or by its index. -/
def ofTag? (variants : List (String × α)) (v : Json) : Option α :=
  (ofName? variants v).or (ofIndex? variants v)

theorem ofTag?_map (variants : List (String × α)) (f : α → β) (v : Json) :
    ofTag? (variants.map fun variant => (variant.1, f variant.2)) v =
      (ofTag? variants v).map f := by
  cases v with
  | null | bool b | arr items | obj fields => rfl
  | str name =>
      simp only [ofTag?, ofName?, ofIndex?, Option.or_none]
      induction variants with
      | nil => rfl
      | cons variant variants ih =>
          rw [List.map_cons, List.lookup_cons, List.lookup_cons]
          cases name == variant.1 with
          | true => rfl
          | false => exact ih
  | num n =>
      cases n with
      | double x => rfl
      | whole i =>
          simp only [ofTag?, ofName?, ofIndex?, Option.none_or, List.getElem?_map]
          split
          · cases variants[i.toNat]? <;> rfl
          · rfl

namespace Decoder

theorem part_toOption (decode : Decoder α) (d : Document) :
    (part decode d).toOption = (decode d).toOption := by
  rw [part]
  cases decode d <;> rfl

theorem tag_toOption (variants : List (String × α)) (v : Json) :
    (tag variants (.ofJson .buffered v)).toOption = ofTag? variants v := by
  cases v with
  | null | bool b | arr items | obj fields => rfl
  | str name =>
      simp only [Document.ofJson, tag, variant, ofTag?, ofName?, ofIndex?, Option.or_none]
      cases variants.lookup name <;> rfl
  | num n =>
      cases n with
      | double x => rfl
      | whole i =>
          simp only [Document.ofJson, tag, ofTag?, ofName?, ofIndex?, Option.none_or]
          by_cases hi : 0 ≤ i
          · simp only [if_pos hi]
            cases variants[i.toNat]? <;> rfl
          · simp only [if_neg hi]
            cases variants[i.toNat]? <;> rfl

/-- The members of an object are the tag, and those that are set aside. -/
theorem untangle_toOption (variants : List (String × α)) (hnodup : (Keyed.keys fields).Nodup) :
    (untangle key variants none (Document.ofFields .buffered fields)).toOption =
      match Keyed.get? key fields with
      | none => some (none, Document.ofFields .buffered fields)
      | some v => (ofTag? variants v).map fun a =>
          (some a, Document.ofFields .buffered (Keyed.erase key fields)) := by
  induction fields with
  | nil => rfl
  | cons field fields ih =>
      obtain ⟨k, v⟩ := field
      obtain ⟨hk, hfields⟩ := List.nodup_cons.mp hnodup
      by_cases hkey : k = key
      · subst hkey
        have herase : Keyed.erase k ((k, v) :: fields) = fields := by
          have hrest : Keyed.erase k fields = fields := Keyed.erase_eq_self hk
          rw [← hrest]
          simp [Keyed.erase]
        rw [Document.ofFields, untangle, if_pos rfl, Keyed.get?, if_pos rfl, herase, toOption_bind,
          part_toOption, tag_toOption]
        simp only [untangle_of_notMem _ hk]
        cases ofTag? variants v <;> rfl
      · have herase : Keyed.erase key ((k, v) :: fields) = (k, v) :: Keyed.erase key fields := by
          simp [Keyed.erase, hkey]
        rw [Document.ofFields, untangle, if_neg hkey, Document.buffer_ofJson, Keyed.get?,
          if_neg hkey, herase, toOption_bind]
        change Option.bind (some _) _ = _
        rw [Option.bind_some, toOption_bind, ih hfields]
        cases Keyed.get? key fields with
        | none => rfl
        | some w =>
            simp only [Option.map_eq_bind, Option.bind_assoc]
            rfl

variable {title : String} {variants : List (String × Decoder α)}

/-- A tagged choice in an object is what its variant decodes from the other members. -/
theorem tagged_toOption_obj (hnodup : (Keyed.keys fields).Nodup) :
    (tagged title key variants (.ofJson .buffered (.obj fields))).toOption =
      ((Keyed.get? key fields).bind (ofTag? variants)).bind fun decode =>
        (decode (.ofJson .buffered (.obj (Keyed.erase key fields)))).toOption := by
  rw [Document.ofJson, tagged, toOption_bind, untangle_toOption variants hnodup]
  cases hkey : Keyed.get? key fields with
  | none => rfl
  | some v =>
      cases htag : ofTag? variants v with
      | none => simp [htag]
      | some decode => simp [htag, Document.ofJson]

/-- A tagged choice in an array is what its variant decodes from the other items. -/
theorem tagged_toOption_arr (first : Json) (rest : List Json) :
    (tagged title key variants (.ofJson .buffered (.arr (first :: rest)))).toOption =
      (ofTag? variants first).bind fun decode =>
        (decode (.ofJson .buffered (.arr rest))).toOption := by
  simp only [Document.ofJson, Document.ofItems, tagged, toOption_bind, part_toOption,
    tag_toOption, Document.bufferItems_ofItems]
  rfl

end Decoder

/-! ### Records of one field -/

namespace Record

variable {decode : Decoder α} {absent : Indexed → Except Indexed α} {title name : String}

theorem read_map_field (name : String) (decode : Decoder α) (make : α → β) (a? : Option α)
    (habsent : ∀ e, (absent e).toOption = a?) (position : Nat) (parts : Fields) :
    ((make <$> field name decode absent).read position parts).toOption =
      (((parts.find? position name).map Prod.snd).elim a? fun d =>
        (decode d).toOption).map make := by
  change ((Record.seq (Record.pure make) (field name decode absent)).read position parts).toOption
    = _
  simp only [Record.seq, Record.pure, List.length_nil, Nat.add_zero, field]
  cases parts.find? position name with
  | none =>
      rw [Option.map_none, Option.elim_none, ← habsent (parts.absent position name)]
      cases absent (parts.absent position name) <;> rfl
  | some part =>
      obtain ⟨index, d⟩ := part
      rw [Option.map_some, Option.elim_some, ← Decoder.part_toOption]
      dsimp only
      cases Decoder.part decode d <;> rfl

/-- From an object that was set aside a record reads its members by their names. -/
theorem exists_fields_obj (title : String) (r : Record α) (hnodup : (Keyed.keys fields).Nodup) :
    ∃ parts : Fields,
      (∀ position name, (parts.find? position name).map Prod.snd =
        (Keyed.get? name fields).map (Document.ofJson .buffered)) ∧
      (r.decoder title (.ofJson .buffered (.obj fields))).toOption =
        (r.read 0 parts).toOption := by
  have hrepeated := repeated?_ofFields .buffered r.names 0 hnodup fun _ _ => List.not_mem_nil
  simp only [Document.ofJson, Record.decoder, hrepeated, Option.map_none]
  generalize hparts : Fields.mk _ _ = parts
  refine ⟨parts, fun _ name => ?_, ?_⟩
  · rw [← hparts]
    exact member?_ofFields name fields .buffered 0
  · cases r.read 0 parts <;> rfl

theorem leftover_buffered (count : Nat) (items : List Document) :
    leftover count .buffered items none = none ↔ items.length ≤ count := by
  rw [← List.drop_eq_nil_iff, leftover.eq_def]
  cases List.drop count items <;> simp

/-- From an array that was set aside a record reads its items by their positions, and there must not
be more of them than it has fields. -/
theorem exists_fields_arr (title : String) (r : Record α) (items : List Json) :
    ∃ parts : Fields,
      (∀ position name, (parts.find? position name).map Prod.snd =
        items[position]?.map (Document.ofJson .buffered)) ∧
      (r.decoder title (.ofJson .buffered (.arr items))).toOption =
        if items.length ≤ r.names.length then (r.read 0 parts).toOption else none := by
  have hleftover := leftover_buffered r.names.length (items.map (Document.ofJson .buffered))
  rw [List.length_map] at hleftover
  simp only [Document.ofJson, Record.decoder, Document.ofItems_eq_map, List.getElem?_map]
  generalize hparts : Fields.mk _ _ = parts
  refine ⟨parts, fun position _ => ?_, ?_⟩
  · rw [← hparts, Option.map_map]
    exact Option.map_id'
  · simp only [← hleftover]
    cases r.read 0 parts with
    | error e => exact (ite_self _).symm
    | ok a =>
        dsimp only
        cases leftover r.names.length .buffered (items.map (Document.ofJson .buffered)) none with
        | none => rfl
        | some f => rfl

theorem single_toOption_obj (make : α → β) (a? : Option α)
    (habsent : ∀ e, (absent e).toOption = a?) (hnodup : (Keyed.keys fields).Nodup) :
    (Record.decoder title (make <$> field name decode absent)
      (.ofJson .buffered (.obj fields))).toOption =
      ((Keyed.get? name fields).elim a? fun v =>
        (decode (.ofJson .buffered v)).toOption).map make := by
  obtain ⟨parts, hfind, hdecoded⟩ :=
    exists_fields_obj title (make <$> field name decode absent) hnodup
  rw [hdecoded, read_map_field name decode make a? habsent, hfind, Option.elim_map]
  rfl

theorem single_toOption_arr (make : α → β) (a? : Option α)
    (habsent : ∀ e, (absent e).toOption = a?) (items : List Json) :
    (Record.decoder title (make <$> field name decode absent)
      (.ofJson .buffered (.arr items))).toOption =
      if items.length ≤ 1 then
        (items.head?.elim a? fun v => (decode (.ofJson .buffered v)).toOption).map make
      else none := by
  obtain ⟨parts, hfind, hdecoded⟩ :=
    exists_fields_arr title (make <$> field name decode absent) items
  rw [hdecoded, read_map_field name decode make a? habsent, hfind, Option.elim_map,
    List.head?_eq_getElem?]
  rfl

end Record

end Workflow.Json
