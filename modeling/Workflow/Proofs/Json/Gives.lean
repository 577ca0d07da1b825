import Workflow.Json.Decoder
import Workflow.Proofs.Json.Document

/-!
# What decoders give

Whatever a document is like, the data that a decoder gives have a property if the data of its parts
have one that carries over.  In this way values that were read are in key order.
-/

namespace Workflow.Json

/-! ### Values -/

theorem ordered_ofPairs {pairs : List (String × Json)} (h : ∀ pair ∈ pairs, pair.2.Ordered) :
    (ofPairs pairs).Ordered :=
  .obj (Keyed.ordered_ofList pairs) fun field hfield => h field (Keyed.mem_of_mem_ofList hfield)

namespace Document

mutual

/-- What is read of a document is in key order. -/
theorem ordered_of_toJson {v : Json} (d : Document) (h : toJson d = .ok v) : v.Ordered := by
  cases d with
  | null o => cases h; exact .null
  | bool o b => cases h; exact .bool b
  | num o n => cases h; exact .num n
  | str o s => cases h; exact .str s
  | arr o items fault =>
      rw [toJson] at h
      obtain ⟨values, hvalues, h⟩ := bind_eq_ok h
      cases fault with
      | some f => cases h
      | none =>
          cases h
          exact .arr (ordered_of_itemValues items hvalues)
  | obj o members fault =>
      rw [toJson] at h
      obtain ⟨pairs, hpairs, h⟩ := bind_eq_ok h
      cases fault with
      | some f => cases h
      | none =>
          cases h
          exact ordered_ofPairs (ordered_of_memberValues members hpairs)
  | bad f => cases h

theorem ordered_of_itemValues {values : List Json} (items : List Document)
    (h : itemValues items = .ok values) : ∀ v ∈ values, v.Ordered := by
  cases items with
  | nil =>
      cases h
      exact fun _ h => nomatch h
  | cons d items =>
      rw [itemValues] at h
      obtain ⟨v, hv, h⟩ := bind_eq_ok h
      obtain ⟨vs, hvs, h⟩ := bind_eq_ok h
      cases h
      exact List.forall_mem_cons.mpr ⟨ordered_of_toJson d hv, ordered_of_itemValues items hvs⟩

theorem ordered_of_memberValues {pairs : List (String × Json)}
    (members : List (String × Nat × Document)) (h : memberValues members = .ok pairs) :
    ∀ pair ∈ pairs, pair.2.Ordered := by
  cases members with
  | nil =>
      cases h
      exact fun _ h => nomatch h
  | cons member members =>
      obtain ⟨k, n, d⟩ := member
      rw [memberValues] at h
      obtain ⟨v, hv, h⟩ := bind_eq_ok h
      obtain ⟨vs, hvs, h⟩ := bind_eq_ok h
      cases h
      exact List.forall_mem_cons.mpr
        ⟨ordered_of_toJson d hv, ordered_of_memberValues members hvs⟩

end

end Document

/-! ### Parts -/

variable {α β : Type} {P : α → Prop} {Q : β → Prop}

/-- Whether all that a decoder gives has a property. -/
def Decoder.Gives (decode : Decoder α) (P : α → Prop) : Prop := ∀ d a, decode d = .ok a → P a

namespace Decoder

variable {decode : Decoder α}

theorem gives_true : decode.Gives fun _ => True := fun _ _ _ => trivial

theorem Gives.ofValue {v : Json} {a : α} (h : decode.Gives P) (hv : decode.ofValue v = .ok a) :
    P a :=
  h _ a (mapError_eq_ok hv)

theorem json_gives : json.Gives Ordered := fun d _ h => d.ordered_of_toJson h

theorem Gives.part (h : decode.Gives P) : decode.part.Gives P := by
  intro d a hd
  rw [Decoder.part] at hd
  cases hdecode : decode d with
  | error f => rw [hdecode] at hd; cases hd
  | ok b =>
      rw [hdecode] at hd
      cases hd
      exact h d _ hdecode

theorem option_gives (h : decode.Gives P) :
    decode.option.Gives fun a? => ∀ a, a? = some a → P a := by
  intro d a? hd a ha
  subst ha
  rw [option.eq_def] at hd
  split at hd
  · cases hd
  · obtain ⟨b, hb, heq⟩ := map_eq_ok hd
    cases heq
    exact h _ _ hb

theorem items_give (h : decode.Gives P) {ds : List Document} {as : List α}
    (hds : items decode ds = .ok as) : ∀ a ∈ as, P a := by
  induction ds generalizing as with
  | nil =>
      cases hds
      exact fun _ h => nomatch h
  | cons d ds ih =>
      obtain ⟨a, ha, hds⟩ := bind_eq_ok hds
      obtain ⟨more, hmore, hds⟩ := bind_eq_ok hds
      cases hds
      exact List.forall_mem_cons.mpr ⟨h.part d a ha, ih hmore⟩

theorem list_gives (h : decode.Gives P) : decode.list.Gives fun as => ∀ a ∈ as, P a := by
  intro d as hd
  rw [list.eq_def] at hd
  split at hd
  · obtain ⟨bs, hbs, hd⟩ := bind_eq_ok hd
    split at hd
    · cases hd
    · cases hd
      exact items_give h hbs
  · cases hd

theorem members_give (h : decode.Gives P) {ms : List (String × Nat × Document)}
    {pairs : List (String × α)} (hms : members decode ms = .ok pairs) :
    ∀ pair ∈ pairs, P pair.2 := by
  induction ms generalizing pairs with
  | nil =>
      cases hms
      exact fun _ h => nomatch h
  | cons m ms ih =>
      obtain ⟨k, n, d⟩ := m
      obtain ⟨a, ha, hms⟩ := bind_eq_ok hms
      obtain ⟨more, hmore, hms⟩ := bind_eq_ok hms
      cases hms
      exact List.forall_mem_cons.mpr ⟨h.part d a ha, ih hmore⟩

theorem keyed_gives (h : decode.Gives P) :
    (keyed decode).Gives fun fields => Keyed.Ordered fields ∧ ∀ field ∈ fields, P field.2 := by
  intro d fields hd
  rw [keyed.eq_def] at hd
  split at hd
  · obtain ⟨pairs, hpairs, hd⟩ := bind_eq_ok hd
    split at hd
    · cases hd
    · cases hd
      exact ⟨Keyed.ordered_ofList pairs,
        fun field hfield => members_give h hpairs field (Keyed.mem_of_mem_ofList hfield)⟩
  · cases hd

theorem keyed_ordered : (keyed decode).Gives fun fields => Keyed.Ordered fields :=
  fun d fields h => (keyed_gives gives_true d fields h).1

end Decoder

/-! ### Records -/

/-- Whether all that a record gives has a property. -/
def Record.Gives (r : Record α) (P : α → Prop) : Prop :=
  ∀ position fields a, r.read position fields = .ok a → P a

namespace Record

variable {r : Record α} {decode : Decoder α} {name : String}

theorem Gives.seq {f : Record (α → β)} (hf : f.Gives fun g => ∀ a, P a → Q (g a))
    (hr : r.Gives P) : (f <*> r).Gives Q := by
  intro position fields b hb
  change (Record.seq f r).read position fields = .ok b at hb
  simp only [Record.seq] at hb
  split at hb
  case h_1 g a hg ha =>
    cases hb
    exact hf _ _ g hg a (hr _ _ a ha)
  all_goals cases hb

theorem Gives.map {g : α → β} (hr : r.Gives P) (hg : ∀ a, P a → Q (g a)) : (g <$> r).Gives Q := by
  refine Gives.seq (fun _ _ g' hg' => ?_) hr
  cases hg'
  exact hg

theorem field_gives {absent : Indexed → Except Indexed α} (h : decode.Gives P)
    (habsent : ∀ e a, absent e = .ok a → P a) : (field name decode absent).Gives P := by
  intro position fields a ha
  simp only [field] at ha
  split at ha
  · exact h.part _ _ (mapError_eq_ok ha)
  · exact habsent _ _ ha

theorem required_gives (h : decode.Gives P) : (required name decode).Gives P :=
  field_gives h fun _ _ he => nomatch he

theorem defaulted_gives {value : α} (h : decode.Gives P) (hvalue : P value) :
    (defaulted name decode value).Gives P :=
  field_gives h fun _ _ he => Except.ok.inj he ▸ hvalue

theorem optional_gives (h : decode.Gives P) :
    (optional name decode).Gives fun a? => ∀ a, a? = some a → P a :=
  defaulted_gives (Decoder.option_gives h) fun _ h => nomatch h

theorem gives_true : r.Gives fun _ => True := fun _ _ _ _ => trivial

theorem Gives.decoder (title : String) (h : r.Gives P) : (Record.decoder title r).Gives P := by
  intro d a hd
  rw [decoder.eq_def] at hd
  split at hd
  · simp only at hd
    split at hd
    case h_1 b _ hb =>
      cases hd
      exact h _ _ a hb
    all_goals cases hd
  · simp only at hd
    split at hd
    case h_1 => cases hd
    case h_2 b hb =>
      split at hd
      · cases hd
      · cases hd
        exact h _ _ a hb
  · cases hd

end Record

/-! ### Tagged choices -/

namespace Decoder

section

variable {variants : List (String × β)} {key : String}

theorem mem_of_tag {b : β} {d : Document} (h : tag variants d = .ok b) :
    ∃ v ∈ variants, v.2 = b := by
  rw [tag.eq_def] at h
  split at h
  · split at h
    case h_1 k c hget =>
      split at h
      · cases h
        exact ⟨(k, b), List.mem_of_getElem? hget, rfl⟩
      · cases h
    case h_2 => split at h <;> cases h
  · rename_i s
    rw [variant] at h
    cases hlookup : variants.lookup s with
    | none => rw [hlookup] at h; cases h
    | some c =>
        rw [hlookup] at h
        cases h
        obtain ⟨pre, post, hv, -⟩ := List.lookup_eq_some_iff.mp hlookup
        exact ⟨(s, b), by rw [hv]; simp, rfl⟩
  · cases h

theorem mem_of_part_tag {b : β} {d : Document} (h : part (tag variants) d = .ok b) :
    ∃ v ∈ variants, v.2 = b :=
  Gives.part (fun _ _ => mem_of_tag) d b h

/-- The choice of a tag is one of the variants. -/
theorem mem_of_untangle {b : β} {chosen : Option β} {ms others : List (String × Nat × Document)}
    (h : untangle key variants chosen ms = .ok (some b, others)) :
    chosen = some b ∨ ∃ v ∈ variants, v.2 = b := by
  induction ms generalizing chosen others with
  | nil =>
      cases h
      exact .inl rfl
  | cons m ms ih =>
      obtain ⟨k, resume, d⟩ := m
      rw [untangle.eq_def] at h
      simp only at h
      split at h
      · split at h
        · cases h
        · obtain ⟨c, hc, h⟩ := bind_eq_ok h
          rcases ih h with hsome | hmem
          · cases hsome
            exact .inr (mem_of_part_tag hc)
          · exact .inr hmem
      · obtain ⟨d', -, h⟩ := bind_eq_ok h
        obtain ⟨⟨c, rest⟩, hc, h⟩ := bind_eq_ok h
        cases h
        exact ih hc

end

variable {variants : List (String × Decoder α)} {key title : String}

theorem tagged_gives (h : ∀ v ∈ variants, v.2.Gives P) : (tagged title key variants).Gives P := by
  intro d a hd
  rw [tagged.eq_def] at hd
  split at hd
  · obtain ⟨⟨chosen, others⟩, huntangle, hd⟩ := bind_eq_ok hd
    simp only at hd
    split at hd
    · cases hd
    · cases hd
    · rcases mem_of_untangle huntangle with hnone | ⟨v, hv, rfl⟩
      · cases hnone
      · exact h v hv _ a hd
  · split at hd
    · cases hd
    · obtain ⟨decode, hdecode, hd⟩ := bind_eq_ok hd
      obtain ⟨rest, -, hd⟩ := bind_eq_ok hd
      obtain ⟨v, hv, rfl⟩ := mem_of_part_tag hdecode
      split at hd
      · cases hd
      · exact h v hv _ a hd
  · cases hd

end Decoder

end Workflow.Json
