import Workflow.Mapping
import Workflow.Proofs.Json.Tagged

/-!
# How the entries of a mapping are read

A text is documented to be a template, an object that names its kind under `type` and has the field
of that kind a typed entry, and any other value a fixed value, which the entry gives as it is.
The decoder of typed entries takes more than that: the index of a kind for its name, and an array
for the object.  A value in one of these forms is read as a typed entry where a fixed value was
meant; every other value is read as documented.
-/

namespace Workflow.Mapping

open Json

/-! ### Kinds -/

inductive Kind where
  | fixed
  | reference
  | expression
  | template

/-- The kinds by their names, in the order of their indexes. -/
def Kind.named : List (String × Kind) :=
  [("static", .fixed), ("reference", .reference), ("expression", .expression),
    ("template", .template)]

def Kind.field : Kind → String
  | .fixed => "value"
  | .reference => "path"
  | .expression => "expression"
  | .template => "template"

def text? : Json → Option String
  | .str s => some s
  | _ => none

/-- The typed entry of a kind, given what is in its field: a fixed value is null if there is none,
and the other kinds need a text. -/
def Kind.typed? (v? : Option Json) : Kind → Option Typed
  | .fixed => some (.fixed (v?.getD .null))
  | .reference => (v?.bind text?).map .reference
  | .expression => (v?.bind text?).map .expression
  | .template => (v?.bind text?).map .template

def Kind.decoder : Kind → Decoder Typed
  | .fixed => Record.decoder "struct variant TypedMapping::Static"
      (Typed.fixed <$> Record.defaulted "value" Decoder.json .null)
  | .reference => Record.decoder "struct variant TypedMapping::Reference"
      (Typed.reference <$> Record.required "path" Decoder.text)
  | .expression => Record.decoder "struct variant TypedMapping::Expression"
      (Typed.expression <$> Record.required "expression" Decoder.text)
  | .template => Record.decoder "struct variant TypedMapping::Template"
      (Typed.template <$> Record.required "template" Decoder.text)

theorem Typed.decoder_eq :
    Typed.decoder = Decoder.tagged "internally tagged enum TypedMapping" "type"
      (Kind.named.map fun kind => (kind.1, kind.2.decoder)) := rfl

/-! ### Forms -/

/-- The typed entry that the members of an object make, with the kind read off their type. -/
def Typed.ofFields? (kind? : Json → Option Kind) (fields : Keyed Json) : Option Typed :=
  ((Keyed.get? "type" fields).bind kind?).bind fun kind =>
    kind.typed? (Keyed.get? kind.field fields)

/-- The typed entry that a value is documented to be: an object that names its kind. -/
def Typed.documented? : Json → Option Typed
  | .obj fields => Typed.ofFields? (ofName? Kind.named) fields
  | _ => none

/-- The typed entry that a value is read as in a form that is not documented: an object with the
index of a kind, or an array of the kind and its field. -/
def Typed.misread? : Json → Option Typed
  | .obj fields => Typed.ofFields? (ofIndex? Kind.named) fields
  | .arr [kind] => (ofTag? Kind.named kind).bind fun kind => kind.typed? none
  | .arr [kind, v] => (ofTag? Kind.named kind).bind fun kind => kind.typed? (some v)
  | _ => none

/-- The entry that a value is, given the typed entry that it is, if any. -/
def Entry.given : Option Typed → Json → Entry
  | some t, _ => .typed t
  | none, .str text => .shorthand text
  | none, v => .literal v

/-- The entry that a value is documented to be. -/
def Entry.documented (v : Json) : Entry := Entry.given (Typed.documented? v) v

/-- The value that an entry is documented to give. -/
def documentedValue (scope : Scope) (v : Json) : Json :=
  match Typed.documented? v, v with
  | some t, _ => (Entry.typed t).resolve scope
  | none, .str text => .str (Template.fill scope text)
  | none, v => v

/-! ### Decoding -/

theorem json_field {v? : Option Json} (h : ∀ v, v? = some v → v.Ordered) :
    (v?.elim (some .null) fun v => (Decoder.json (.ofJson .buffered v)).toOption) =
      some (v?.getD .null) := by
  cases v? with
  | none => rfl
  | some v => rw [Option.elim_some, Decoder.json_reads (h v rfl), Option.getD_some, Except.toOption]

theorem text_field (v? : Option Json) :
    (v?.elim none fun v => (Decoder.text (.ofJson .buffered v)).toOption) = v?.bind text? := by
  cases v? with
  | none => rfl
  | some v => cases v <;> rfl

theorem Kind.decoder_toOption_obj (kind : Kind) {fields : Keyed Json}
    (h : Json.Ordered (.obj fields)) :
    (kind.decoder (.ofJson .buffered (.obj fields))).toOption =
      kind.typed? (Keyed.get? kind.field fields) := by
  cases h with
  | obj hkeys hfields =>
  cases kind with
  | fixed =>
      rw [Kind.decoder, Record.defaulted,
        Record.single_toOption_obj _ (some .null) (fun _ => rfl) hkeys.nodup,
        json_field fun v hv => hfields _ (Keyed.mem_of_get? hv)]
      rfl
  | reference | expression | template =>
      rw [Kind.decoder, Record.required,
        Record.single_toOption_obj _ none (fun _ => rfl) hkeys.nodup, text_field]
      rfl

theorem Kind.decoder_toOption_arr (kind : Kind) {items : List Json}
    (h : ∀ v ∈ items, v.Ordered) :
    (kind.decoder (.ofJson .buffered (.arr items))).toOption =
      if items.length ≤ 1 then kind.typed? items.head? else none := by
  cases kind with
  | fixed =>
      rw [Kind.decoder, Record.defaulted,
        Record.single_toOption_arr _ (some .null) (fun _ => rfl),
        json_field fun v hv => h v (List.mem_of_mem_head? hv)]
      rfl
  | reference | expression | template =>
      rw [Kind.decoder, Record.required, Record.single_toOption_arr _ none (fun _ => rfl),
        text_field]
      rfl

/-- A tag is the name of a kind, or its index, and not both. -/
theorem Typed.ofFields?_ofTag? (fields : Keyed Json) :
    Typed.ofFields? (ofTag? Kind.named) fields =
      (Typed.ofFields? (ofName? Kind.named) fields).or
        (Typed.ofFields? (ofIndex? Kind.named) fields) := by
  simp only [Typed.ofFields?]
  cases Keyed.get? "type" fields with
  | none => rfl
  | some v =>
      cases v with
      | null | bool b | num n | arr items | obj fields => rfl
      | str name => simp [ofTag?, ofIndex?]

/-- A value is decoded as a typed entry if it has a form of one, documented or not. -/
theorem Typed.decoder_toOption {v : Json} (h : v.Ordered) :
    (Typed.decoder (.ofJson .buffered v)).toOption =
      (Typed.documented? v).or (Typed.misread? v) := by
  rw [Typed.decoder_eq]
  cases h with
  | null | bool b | num n | str s => rfl
  | @obj fields hkeys hfields =>
      have hrest : Json.Ordered (.obj (Keyed.erase "type" fields)) :=
        .obj hkeys.erase fun field hfield => hfields field (Keyed.mem_of_mem_erase hfield)
      have hfield (kind : Kind) : Keyed.get? kind.field (Keyed.erase "type" fields) =
          Keyed.get? kind.field fields :=
        Keyed.get?_erase_of_ne (by cases kind <;> decide)
      rw [Decoder.tagged_toOption_obj hkeys.nodup, Typed.documented?, Typed.misread?,
        ← Typed.ofFields?_ofTag?, Typed.ofFields?]
      cases Keyed.get? "type" fields with
      | none => rfl
      | some tag =>
          simp only [Option.bind_some, ofTag?_map, Option.bind_map]
          refine congrArg _ (funext fun kind => ?_)
          rw [Function.comp_apply, kind.decoder_toOption_obj hrest, hfield]
  | @arr items hitems =>
      match items with
      | [] => rfl
      | tag :: rest =>
          rw [Decoder.tagged_toOption_arr, ofTag?_map, Option.bind_map]
          have hkind (kind : Kind) := kind.decoder_toOption_arr fun v hv =>
            hitems v (List.mem_cons_of_mem tag hv)
          match rest with
          | [] => exact congrArg _ (funext hkind)
          | [v] => exact congrArg _ (funext hkind)
          | v :: w :: more =>
              cases ofTag? Kind.named tag with
              | none => rfl
              | some kind => exact hkind kind

/-- What names its kind does not give an index for it. -/
theorem Typed.misread?_of_documented? {v : Json} {t : Typed} (h : Typed.documented? v = some t) :
    Typed.misread? v = none := by
  cases v with
  | null | bool b | num n | str s | arr items => cases h
  | obj fields =>
      rw [Typed.documented?, Typed.ofFields?] at h
      rw [Typed.misread?, Typed.ofFields?]
      cases hkind : Keyed.get? "type" fields with
      | none => rfl
      | some tag =>
          rw [hkind] at h
          cases tag with
          | null | bool b | str s | arr items | obj fields => rfl
          | num n => cases h

theorem sizeOf_lt_of_get? {key : String} {fields : Keyed Json} {v : Json}
    (h : Keyed.get? key fields = some v) : sizeOf v < sizeOf (Json.obj fields) := by
  have hfield := List.sizeOf_lt_of_mem (Keyed.mem_of_get? h)
  simp only [Prod.mk.sizeOf_spec, Json.obj.sizeOf_spec] at hfield ⊢
  omega

/-- A fixed value that is misread is not the value that it was read from. -/
theorem Typed.ne_of_misread? {v w : Json} (h : Typed.misread? v = some (.fixed w)) : w ≠ v := by
  have hfixed {kind : Kind} {v? : Option Json} (hkind : kind.typed? v? = some (.fixed w)) :
      kind = .fixed ∧ w = v?.getD .null := by
    cases kind with
    | fixed => exact ⟨rfl, (Typed.fixed.inj (Option.some.inj hkind)).symm⟩
    | reference | expression | template =>
        obtain ⟨text, -, htext⟩ := Option.map_eq_some_iff.mp hkind
        cases htext
  rintro rfl
  -- The fixed value is null or a part of what is read, and so not all of it.
  match w, h with
  | .obj fields, h =>
      obtain ⟨kind, -, hkind⟩ := Option.bind_eq_some_iff.mp h
      obtain ⟨rfl, hw⟩ := hfixed hkind
      cases hvalue : Keyed.get? "value" fields with
      | none =>
          rw [Kind.field, hvalue] at hw
          cases hw
      | some v =>
          rw [Kind.field, hvalue, Option.getD_some] at hw
          exact absurd (sizeOf_lt_of_get? hvalue) (hw ▸ lt_irrefl _)
  | .arr [tag], h =>
      obtain ⟨kind, -, hkind⟩ := Option.bind_eq_some_iff.mp h
      cases (hfixed hkind).2
  | .arr [tag, v], h =>
      obtain ⟨kind, -, hkind⟩ := Option.bind_eq_some_iff.mp h
      have hv : Json.arr [tag, v] = v := (hfixed hkind).2
      have hsize := congrArg sizeOf hv
      simp only [Json.arr.sizeOf_spec, List.cons.sizeOf_spec] at hsize
      omega

/-! ### Entries -/

theorem Entry.ofJson_eq {v : Json} (h : v.Ordered) :
    Entry.ofJson v = Entry.given ((Typed.documented? v).or (Typed.misread? v)) v := by
  have hread := Typed.decoder_toOption h
  rw [Entry.ofJson.eq_def]
  cases htyped : (Typed.documented? v).or (Typed.misread? v) with
  | some t =>
      rw [toOption_eq_some (hread.trans htyped)]
      rfl
  | none =>
      obtain ⟨fault, hfault⟩ := toOption_eq_none (hread.trans htyped)
      rw [hfault]
      cases v <;> rfl

/-- What is misread is a fixed value by the documentation, and is read as a typed entry. -/
theorem Entry.ofJson_of_misread? {v : Json} {t : Typed} (h : v.Ordered)
    (ht : Typed.misread? v = some t) :
    Entry.ofJson v = .typed t ∧ Entry.documented v ≠ .typed t := by
  have hnone : Typed.documented? v = none := by
    cases hdocumented : Typed.documented? v with
    | none => rfl
    | some t' => cases ht.symm.trans (Typed.misread?_of_documented? hdocumented)
  constructor
  · rw [Entry.ofJson_eq h, hnone, ht]
    rfl
  · rw [Entry.documented, hnone]
    cases v <;> exact nofun

theorem Entry.ofJson_of_not_misread {v : Json} (h : v.Ordered) (hnone : Typed.misread? v = none) :
    Entry.ofJson v = .documented v := by
  rw [Entry.ofJson_eq h, hnone, Option.or_none, Entry.documented]

theorem Entry.resolve_documented (scope : Scope) (v : Json) :
    (Entry.documented v).resolve scope = documentedValue scope v := by
  rw [Entry.documented, documentedValue.eq_def]
  cases Typed.documented? v with
  | some t => rfl
  | none => cases v <;> rfl

/-- An entry of a mapping is read as documented exactly if it has none of the forms that are
misread, and then it gives the documented value.  A form that is misread gives the typed entry, so
that a fixed value is never the one that was written. -/
theorem entries_documented_unless_misread {fields : Keyed Json}
    (h : Json.Ordered (.obj fields)) :
    ∃ entries, Mapping.decoder.Reads (.obj fields) entries ∧
      Keyed.keys entries = Keyed.keys fields ∧
      ∀ key v, Keyed.get? key fields = some v → ∃ entry, Keyed.get? key entries = some entry ∧
        (entry = .documented v ↔ Typed.misread? v = none) ∧
        (∀ t, Typed.misread? v = some t → entry = .typed t) ∧
        ∀ scope, Keyed.get? key (resolve scope entries) = some (entry.resolve scope) ∧
          (Typed.misread? v = none → entry.resolve scope = documentedValue scope v) ∧
          ∀ w, Typed.misread? v = some (.fixed w) → entry.resolve scope ≠ v := by
  cases h with
  | obj hkeys hfields =>
  have hvalue {key : String} {v : Json} (hget : Keyed.get? key fields = some v) : v.Ordered :=
    hfields (key, v) (Keyed.mem_of_get? hget)
  refine ⟨Keyed.mapValues Entry.ofJson fields,
    Decoder.keyed_reads hkeys fun field hfield o => ?_, Keyed.keys_mapValues _ _,
    fun key v hget => ?_⟩
  · rw [Entry.decoder, Document.toJson_ofJson (hfields field hfield)]
    rfl
  · have hentry : Keyed.get? key (Keyed.mapValues Entry.ofJson fields) = some (.ofJson v) := by
      rw [Keyed.get?_mapValues, hget, Option.map_some]
    refine ⟨.ofJson v, hentry, ⟨fun hread => ?_, Entry.ofJson_of_not_misread (hvalue hget)⟩,
      fun t ht => (Entry.ofJson_of_misread? (hvalue hget) ht).1, fun scope => ⟨?_, ?_, ?_⟩⟩
    · cases ht : Typed.misread? v with
      | none => rfl
      | some t =>
          obtain ⟨htyped, hne⟩ := Entry.ofJson_of_misread? (hvalue hget) ht
          exact absurd (hread.symm.trans htyped) hne
    · rw [resolve, Keyed.get?_mapValues, hentry, Option.map_some]
    · intro hnone
      rw [Entry.ofJson_of_not_misread (hvalue hget) hnone, Entry.resolve_documented]
    · intro w hw
      rw [(Entry.ofJson_of_misread? (hvalue hget) hw).1]
      exact Typed.ne_of_misread? hw

/-- An array that begins with the name of a kind is misread. -/
theorem static_array_is_misread :
    Json.Ordered (.obj [("k", .arr [.str "static", .num (.whole 1)])]) ∧
      ∃ entries, Mapping.decoder.Reads
          (.obj [("k", .arr [.str "static", .num (.whole 1)])]) entries ∧
        ∀ scope, Keyed.get? "k" (resolve scope entries) = some (.num (.whole 1)) ∧
          documentedValue scope (.arr [.str "static", .num (.whole 1)]) =
            .arr [.str "static", .num (.whole 1)] := by
  have hordered : Json.Ordered (.obj [("k", .arr [.str "static", .num (.whole 1)])]) := by
    refine .obj (List.pairwise_singleton _ _) fun field hfield => ?_
    rw [List.mem_singleton.mp hfield]
    refine .arr fun v hv => ?_
    rcases List.mem_pair.mp hv with rfl | rfl
    · exact .str _
    · exact .num _
  obtain ⟨entries, hreads, -, hentries⟩ := entries_documented_unless_misread hordered
  obtain ⟨entry, -, -, hmisread, hresolve⟩ := hentries "k" _ rfl
  refine ⟨hordered, entries, hreads, fun scope => ⟨?_, rfl⟩⟩
  rw [(hresolve scope).1, hmisread (.fixed (.num (.whole 1))) rfl]
  rfl

end Workflow.Mapping
