import Workflow.Json.Decoder
import Workflow.Proofs.Json.Document

/-!
# What decoders read

A decoder reads a value as some data if it gives the data for the document of the value, wherever
the document comes from.  There is one law for each way to make a decoder, so that what a decoder
reads is put together as the decoder is.
-/

namespace Workflow.Json

variable {α β : Type} {v : Json} {a : α} {fields : Keyed Json} {name : String}

/-- Whether a decoder reads a value as some data. -/
def Decoder.Reads (decode : Decoder α) (v : Json) (a : α) : Prop :=
  ∀ o, decode (.ofJson o v) = .ok a

namespace Decoder

variable {decode : Decoder α}

/-! ### Parts -/

theorem Reads.part (h : decode.Reads v a) (o : Origin) : decode.part (.ofJson o v) = .ok a := by
  rw [Decoder.part, h o]

theorem Reads.ofValue (h : decode.Reads v a) : decode.ofValue v = .ok a := by
  rw [Decoder.ofValue, h]
  rfl

theorem json_reads (h : v.Ordered) : Decoder.json.Reads v v := fun _ => Document.toJson_ofJson h

theorem text_reads (s : String) : Decoder.text.Reads (.str s) s := fun _ => rfl

theorem name_reads {variants : List (String × α)} {s : String} (h : variants.lookup s = some a) :
    (Decoder.name variants).Reads (.str s) a := by
  intro o
  rw [Document.ofJson, Decoder.name, variant, h]

/-- What may be null is read as it is if it is not. -/
theorem option_reads (h : decode.Reads v a) (hv : v.isNull = false) :
    decode.option.Reads v (some a) := by
  intro o
  have hread := h o
  cases v with
  | null => cases hv
  | bool b | num n | str s | arr items | obj fields =>
      rw [Document.ofJson] at hread ⊢
      rw [Decoder.option, hread]
      · rfl
      · exact fun _ h => by cases h

theorem list_reads {as : List α} {toJson : α → Json} (h : ∀ a ∈ as, decode.Reads (toJson a) a) :
    decode.list.Reads (.arr (as.map toJson)) as := by
  intro o
  have hitems : items decode (Document.ofItems o (as.map toJson)) = .ok as := by
    induction as with
    | nil => rfl
    | cons a as ih =>
        rw [List.map_cons, Document.ofItems, items, (h a List.mem_cons_self).part,
          ih fun b hb => h b (List.mem_cons_of_mem a hb)]
        rfl
  rw [Document.ofJson, list, hitems]
  rfl

theorem keyed_reads {read : Json → α} (hkeys : Keyed.Ordered fields)
    (h : ∀ field ∈ fields, decode.Reads field.2 (read field.2)) :
    (Decoder.keyed decode).Reads (.obj fields) (Keyed.mapValues read fields) := by
  intro o
  have hmembers : members decode (Document.ofFields o fields) =
      .ok (Keyed.mapValues read fields) := by
    clear hkeys
    induction fields with
    | nil => rfl
    | cons field fields ih =>
        obtain ⟨k, v⟩ := field
        rw [Document.ofFields, members, (h (k, v) List.mem_cons_self).part,
          ih fun other hother => h other (List.mem_cons_of_mem _ hother)]
        rfl
  have hordered : Keyed.Ordered (Keyed.mapValues read fields) := by
    rwa [Keyed.Ordered, Keyed.keys_mapValues]
  rw [Document.ofJson, keyed, hmembers]
  exact congrArg Except.ok (Keyed.ofList_eq_self hordered)

theorem keyed_json_reads (hkeys : Keyed.Ordered fields) (h : ∀ field ∈ fields, field.2.Ordered) :
    (Decoder.keyed Decoder.json).Reads (.obj fields) fields := by
  have hreads : (Decoder.keyed Decoder.json).Reads (.obj fields) (Keyed.mapValues id fields) :=
    keyed_reads hkeys fun field hfield => json_reads (h field hfield)
  rwa [show Keyed.mapValues id fields = fields from List.map_id fields] at hreads

end Decoder

/-! ### Records -/

/-- Whether a record is read as some data from the members of an object. -/
def Record.Reads (r : Record α) (fields : Keyed Json) (a : α) : Prop :=
  ∀ o position absent,
    r.read position ⟨fun _ name => Record.member? name 0 (Document.ofFields o fields), absent⟩ =
      .ok a

namespace Record

theorem member?_ofFields (name : String) (fields : List (String × Json)) (o : Origin)
    (index : Nat) :
    (member? name index (Document.ofFields o fields)).map Prod.snd =
      (Keyed.get? name fields).map (Document.ofJson o) := by
  induction fields generalizing index with
  | nil => rfl
  | cons field fields ih =>
      obtain ⟨k, v⟩ := field
      rw [Document.ofFields, member?, Keyed.get?]
      split
      · rfl
      · exact ih (index + 1)

theorem repeated?_ofFields {seen : List String} (o : Origin) (names : List String) (index : Nat)
    (hnodup : (Keyed.keys fields).Nodup) (hseen : ∀ k ∈ Keyed.keys fields, k ∉ seen) :
    repeated? names index seen (Document.ofFields o fields) = none := by
  induction fields generalizing index seen with
  | nil => rfl
  | cons field fields ih =>
      obtain ⟨k, v⟩ := field
      obtain ⟨hk, hfields⟩ := List.nodup_cons.mp hnodup
      have hnew : k ∉ seen := hseen k List.mem_cons_self
      simp only [Document.ofFields, repeated?, hnew, decide_false, Bool.and_false,
        Bool.false_eq_true, if_false]
      refine ih (index + 1) hfields fun l hl => ?_
      rw [List.mem_cons, not_or]
      refine ⟨?_, hseen l (List.mem_cons_of_mem k hl)⟩
      rintro rfl
      exact hk hl

theorem pure_reads (a : α) : (Record.pure a).Reads fields a := fun _ _ _ => rfl

theorem Reads.seq {f : Record (α → β)} {r : Record α} {g : α → β} (hf : f.Reads fields g)
    (hr : r.Reads fields a) : (f <*> r).Reads fields (g a) := by
  intro o position absent
  change (Record.seq f r).read position _ = _
  simp only [Record.seq, hf o, hr o]

theorem Reads.map {r : Record α} (g : α → β) (hr : r.Reads fields a) :
    (g <$> r).Reads fields (g a) := (pure_reads g).seq hr

section

variable {decode : Decoder α}

theorem field_reads {absent : Indexed → Except Indexed α} (hget : Keyed.get? name fields = some v)
    (h : decode.Reads v a) : (field name decode absent).Reads fields a := by
  intro o position other
  have hfound := member?_ofFields name fields o 0
  rw [hget, Option.map_some, Option.map_eq_some_iff] at hfound
  obtain ⟨⟨index, d⟩, hmember, hd⟩ := hfound
  change d = _ at hd
  simp only [field, hmember, hd, h.part]
  rfl

theorem required_reads (hget : Keyed.get? name fields = some v) (h : decode.Reads v a) :
    (required name decode).Reads fields a := field_reads hget h

theorem defaulted_reads {default : α} (hget : Keyed.get? name fields = some v)
    (h : decode.Reads v a) : (defaulted name decode default).Reads fields a := field_reads hget h

theorem defaulted_reads_absent (hget : Keyed.get? name fields = none) (default : α) :
    (defaulted name decode default).Reads fields default := by
  intro o position other
  have hfound := member?_ofFields name fields o 0
  rw [hget, Option.map_none, Option.map_eq_none_iff] at hfound
  simp only [defaulted, field, hfound]

/-- What is optional is read if it is there, and is not null. -/
theorem optional_reads {a? : Option α} {toJson : α → Json}
    (hget : Keyed.get? name fields = a?.map toJson)
    (h : ∀ a, a? = some a → decode.Reads (toJson a) a ∧ (toJson a).isNull = false) :
    (optional name decode).Reads fields a? := by
  cases a? with
  | none => exact defaulted_reads_absent hget none
  | some a =>
      obtain ⟨hreads, hnull⟩ := h a rfl
      exact defaulted_reads hget (Decoder.option_reads hreads hnull)

end

theorem Reads.decoder {r : Record α} (title : String) (h : r.Reads fields a)
    (hnodup : (Keyed.keys fields).Nodup) : (Record.decoder title r).Reads (.obj fields) a := by
  intro o
  have hrepeated := repeated?_ofFields o r.names 0 hnodup fun _ _ =>
    List.not_mem_nil
  simp only [Document.ofJson, Record.decoder, hrepeated, Option.map_none, h o]

end Record

/-! ### Tagged choices -/

namespace Decoder

variable {decode : Decoder α} {variants : List (String × Decoder α)} {key s : String}

theorem bare_reads (a : α) : (Decoder.bare a).Reads (.obj fields) a := fun _ => rfl

/-- Once the tag is known, the other members are set aside as they are. -/
theorem untangle_of_notMem {variants : List (String × β)} {o : Origin} (chosen : Option β)
    (h : key ∉ Keyed.keys fields) :
    untangle key variants chosen (Document.ofFields o fields) =
      .ok (chosen, Document.ofFields .buffered fields) := by
  induction fields with
  | nil => rfl
  | cons field fields ih =>
      obtain ⟨k, v⟩ := field
      obtain ⟨hk, hfields⟩ := not_or.mp (mt List.mem_cons.mpr h)
      rw [Document.ofFields, untangle.eq_def]
      simp only [if_neg (Ne.symm hk), Document.buffer_ofJson, bind, Except.bind, ih hfields]
      rfl

theorem untangle_of_get? {variants : List (String × β)} {b : β} {o : Origin}
    (hnodup : (Keyed.keys fields).Nodup) (hget : Keyed.get? key fields = some (.str s))
    (hs : variants.lookup s = some b) :
    untangle key variants none (Document.ofFields o fields) =
      .ok (some b, Document.ofFields .buffered (Keyed.erase key fields)) := by
  induction fields with
  | nil => cases hget
  | cons field fields ih =>
      obtain ⟨k, v⟩ := field
      obtain ⟨hk, hfields⟩ := List.nodup_cons.mp hnodup
      by_cases hkey : k = key
      · subst hkey
        have hv : v = .str s := by simpa [Keyed.get?] using hget
        have htag : part (tag variants) (.ofJson o (.str s)) = .ok b := by
          rw [Document.ofJson, part, tag, variant, hs]
        have herase : Keyed.erase k ((k, v) :: fields) = fields := by
          have hrest : Keyed.erase k fields = fields := Keyed.erase_eq_self hk
          rw [← hrest]
          simp [Keyed.erase]
        rw [herase, Document.ofFields, untangle, if_pos rfl, hv, htag]
        exact untangle_of_notMem (some b) hk
      · rw [Keyed.get?, if_neg hkey] at hget
        have herase : Keyed.erase key ((k, v) :: fields) = (k, v) :: Keyed.erase key fields := by
          simp [Keyed.erase, hkey]
        rw [Document.ofFields, untangle, if_neg hkey, Document.buffer_ofJson, herase]
        simp only [bind, Except.bind, ih hfields hget]
        rfl

/-- A tagged choice is read if its variant reads the members beside the tag. -/
theorem tagged_reads {title : String} (hnodup : (Keyed.keys fields).Nodup)
    (hget : Keyed.get? key fields = some (.str s)) (hs : variants.lookup s = some decode)
    (h : decode.Reads (.obj (Keyed.erase key fields)) a) :
    (Decoder.tagged title key variants).Reads (.obj fields) a := by
  intro o
  rw [Document.ofJson, tagged, untangle_of_get? hnodup hget hs]
  exact h .buffered

end Decoder

end Workflow.Json
