import Workflow.Proofs.Primitive.Lookup
import Workflow.Proofs.Process.Ends
import Workflow.Proofs.Run.Course
import Workflow.Proofs.Run.Scene
import Workflow.Proofs.Run.Walk

/-!
# Settings

A setting is what stays as it is while a run goes on: the rows of the primitives, the execution of
the run, which nobody tells to stop, and the instants that the clock may show.  All else in a scene
may change, also by others.  In a setting that suits a walk every primitive gives one answer to an
input, whether it is kept already or has to be read from the store.
-/

namespace Workflow

open Proc

variable {H α β : Type}

theorem Keyed.eq_of_get?_singleton {γ : Type*} {key other : String} {v v' : γ}
    (h : Keyed.get? key [(other, v)] = some v') : v' = v := by
  rw [Keyed.get?] at h
  split at h
  · exact (Option.some.inj h).symm
  · cases h

theorem Registry.eq_of_find?_singleton {name other version : String} {handler handler' : Handler H}
    (h : Registry.find? name version [(other, [(anyVersion, handler)])] = some handler') :
    handler' = handler := by
  obtain ⟨versions, hname, hversion⟩ := Option.bind_eq_some_iff.mp h
  obtain rfl := Keyed.eq_of_get?_singleton hname
  simp only [Option.orElse_eq_orElse, Option.orElse_eq_or, Option.or_eq_some_iff] at hversion
  rcases hversion with hown | ⟨-, hany⟩
  · exact Keyed.eq_of_get?_singleton hown
  · exact Keyed.eq_of_get?_singleton hany

/-- What stays as it is while a run goes on. -/
structure Setting where
  rows : List PrimitiveRow
  timeout : Nat
  execution : Uuid
  shown : Time.Instant → Prop

/-- A reply is within what the clock may show, if it is one of the clock. -/
def Call.Shows (shown : Time.Instant → Prop) : {β : Type} → Call H β → β → Prop
  | _, .clock, now => shown now
  | _, .store _, _ => True
  | _, .here _, _ => True
  | _, .exchange _, _ => True
  | _, .custom _, _ => True

namespace Setting

/-- The rows are those of the setting, what is kept was read from them, and the run goes on. -/
structure Holds (k : Setting) (s : Scene) : Prop where
  rows : s.memory.primitives = k.rows
  cache : ∀ p ∈ s.here.cache, ∃ row ∈ k.rows, Primitive.ofRow row k.timeout = .ok p
  running : k.execution ∉ s.here.stopped

/-- What a call may be answered when the clock shows what it may. -/
def Answers (k : Setting) (r : Role) (β : Type) (c : Call H β) (s : Scene) (reply : β)
    (s' : Scene) : Prop :=
  Scene.Answers r β c s reply s' ∧ c.Shows k.shown reply

/-- What a process settles on in a setting. -/
abbrev Settles (k : Setting) (p : Proc (Call H) α) (Q : α → Prop) : Prop :=
  Proc.Settles k.Answers k.Holds p Q

/-- Where a process comes to in a setting, among others that keep to it. -/
abbrev Goes (k : Setting) (r : Role) (a b : Proc (Call H) α × Scene) : Prop :=
  Proc.Goes k.Answers k.Holds r a b

/-- What a process may end with in a setting, if it is given all the time it needs. -/
abbrev Ends (k : Setting) (p : Proc (Call H) α) (a : α) : Prop := Proc.Ends k.Answers k.Holds p a

variable {k : Setting}

theorem exists_holds (k : Setting) : ∃ s, k.Holds s :=
  ⟨⟨⟨[], [], k.rows, [], 0⟩, .empty, []⟩, rfl, by rintro p ⟨⟩, by rintro ⟨⟩⟩

/-- What a call may be answered has nothing to do with who makes it, which is only noted. -/
theorem impartial : Impartial (E := Call H) k.Answers := by
  rintro r r' β c s reply s' ⟨hanswer, hshown⟩
  cases c with
  | store c =>
      let log := s.log ++ (c.note? reply).toList.map fun n => (r', n)
      exact ⟨⟨s'.memory, s'.here, log⟩, ⟨hanswer.1, hanswer.2.1, rfl⟩, hshown⟩
  | here c =>
      let log := s.log ++ c.note?.toList.map fun n => (r', n)
      exact ⟨⟨s'.memory, s'.here, log⟩, ⟨hanswer.1, hanswer.2.1, rfl⟩, hshown⟩
  | clock => exact ⟨s', hanswer, hshown⟩
  | exchange _ => exact ⟨s', hanswer, hshown⟩
  | custom _ => exact ⟨s', hanswer, hshown⟩

theorem ends_done {a b : α} : k.Ends (.done a : Proc (Call H) α) b ↔ a = b :=
  Proc.ends_done k.exists_holds

theorem ends_bind {p : Proc (Call H) α} {f : α → Proc (Call H) β} {Q : α → Prop}
    (h : k.Settles p Q) {b : β} : k.Ends (p.bind f) b ↔ ∃ a, k.Ends p a ∧ k.Ends (f a) b :=
  Proc.ends_bind k.impartial h

section

variable {ι : Type} {f : ι → Proc (Call H) α} {R : ι → α → Prop} {is : List ι} {results : List α}

theorem ends_inTurn (h : ∀ i ∈ is, k.Settles (f i) (R i)) :
    k.Ends (inTurn (is.map f)) results ↔
      List.Forall₂ (fun i a => k.Ends (f i) a) is results :=
  Proc.ends_inTurn k.impartial k.exists_holds h

theorem ends_sideBySide (h : ∀ i ∈ is, k.Settles (f i) (R i)) :
    k.Ends (sideBySide (is.map f)) results ↔
      List.Forall₂ (fun i a => k.Ends (f i) a) is results :=
  Proc.ends_sideBySide k.impartial k.exists_holds h

end

/-! ### Replies -/

theorem replies_clock {P : Time.Instant → Prop} (hP : ∀ now, k.shown now → P now) :
    Replies (E := Call H) k.Answers k.Holds .clock P := by
  rintro r s now s' hs ⟨hanswer, hshown⟩
  exact ⟨hanswer ▸ hs, hP now hshown⟩

theorem replies_isStopped :
    Replies (E := Call H) k.Answers k.Holds (.here (.isStopped k.execution)) (· = false) := by
  rintro r s stopped s' hs ⟨hanswer, -⟩
  obtain ⟨rfl, hstopped⟩ := Scene.answers_isStopped hanswer
  exact ⟨hs, Bool.eq_false_iff.mpr fun h => hs.running (hstopped.mp h)⟩

/-- The state of the process after a call that changes neither the signals nor what is kept. -/
theorem Holds.of_here {s s' : Scene} (h : k.Holds s) (hmemory : s'.memory = s.memory)
    (hcache : s'.here.cache = s.here.cache) (hstopped : s'.here.stopped = s.here.stopped) :
    k.Holds s' :=
  ⟨by rw [hmemory, h.rows], by rw [hcache]; exact h.cache, by rw [hstopped]; exact h.running⟩

theorem replies_cached (reference : PrimitiveRef) :
    Replies (E := Call H) k.Answers k.Holds (.here reference.cached) fun cached =>
      ∀ p, cached = some p → reference.fits p.id p.name = true ∧
        ∃ row ∈ k.rows, Primitive.ofRow row k.timeout = .ok p := by
  rintro r s cached s' hs ⟨⟨hanswer, hmemory, -⟩, -⟩
  rw [PrimitiveRef.answer_cached] at hanswer
  obtain ⟨hcached, hhere⟩ := Prod.mk.inj hanswer
  refine ⟨hs.of_here hmemory (by rw [hhere]) (by rw [hhere]), fun p hp => ?_⟩
  rw [← hcached] at hp
  have hfits := List.find?_some hp
  exact ⟨hfits, hs.cache p (List.mem_of_find?_eq_some hp)⟩

theorem replies_remember {row : PrimitiveRow} {p : Primitive} (hrow : row ∈ k.rows)
    (hp : Primitive.ofRow row k.timeout = .ok p) :
    Replies (E := Call H) k.Answers k.Holds (.here (.remember p)) fun _ => True := by
  rintro r s _ s' hs ⟨⟨hanswer, hmemory, -⟩, -⟩
  obtain ⟨-, hhere⟩ := Prod.mk.inj hanswer
  refine ⟨⟨by rw [hmemory, hs.rows], fun q hq => ?_, by rw [← hhere]; exact hs.running⟩, trivial⟩
  rw [← hhere, Local.remember, List.mem_append, List.mem_singleton] at hq
  rcases hq with hq | rfl
  · exact hs.cache q (List.mem_of_mem_filter hq)
  · exact ⟨row, hrow, hp⟩

theorem replies_find (reference : PrimitiveRef) :
    Replies (E := Call H) k.Answers k.Holds (.store reference.find)
      (· = .ok (reference.row? k.rows)) := by
  rintro r s reply s' hs ⟨⟨⟨fresh, now, -, hanswer⟩, hhere, -⟩, -⟩
  rw [PrimitiveRef.answer_find] at hanswer
  obtain ⟨rfl, hmemory⟩ := Prod.mk.inj hanswer
  refine ⟨⟨by rw [← hmemory]; exact hs.rows, by rw [hhere]; exact hs.cache,
    by rw [hhere]; exact hs.running⟩, ?_⟩
  rw [hs.rows]

theorem replies_insertAudit (record : NewAudit) :
    Replies (E := Call H) k.Answers k.Holds (.store (.insertAudit record)) fun _ => True := by
  rintro r s reply s' hs ⟨⟨⟨fresh, now, -, hanswer⟩, hhere, -⟩, -⟩
  obtain ⟨-, hmemory⟩ := Prod.mk.inj hanswer
  exact ⟨⟨by rw [← hmemory]; exact hs.rows, by rw [hhere]; exact hs.cache,
    by rw [hhere]; exact hs.running⟩, trivial⟩

/-! ### Settings that suit a walk -/

/-- Something is the same at all instants that the clock may show. -/
def Ignores (k : Setting) {γ : Type} (f : Time.Instant → γ) : Prop :=
  ∀ now now', k.shown now → k.shown now' → f now = f now'

/-- It makes no difference to what a workflow does which of the instants it is at which the clock is
read: its guards, its conditions and its mappings have the same value at all of them. -/
structure Timeless (k : Setting) (d : Definition) : Prop where
  guard : ∀ e ∈ d.edges, ∀ guard, e.guard = some guard → ∀ c : Context,
    k.Ignores fun now => guard.holds (c.scope now)
  condition : ∀ node ∈ d.nodes, ∀ condition, node.type = .condition →
    node.read conditionConfig = .ok condition → ∀ c : Context,
      k.Ignores fun now => condition.holds (c.scope now)
  input : ∀ node ∈ d.nodes, ∀ config, node.type = .primitive →
    node.read PrimitiveConfig.decoder = .ok config → ∀ c : Context,
      k.Ignores fun now => Mapping.resolve (c.scope now) config.mapping
  output : ∀ node ∈ d.nodes, ∀ mapping, node.type = .output →
    node.read outputConfig = .ok mapping → ∀ c : Context,
      k.Ignores fun now => Mapping.resolve (c.scope now) mapping

/-- In a setting that suits a walk no two primitives have a name or an identifier in common, and
handlers answer as a function of the primitive and the input. -/
structure Suits (k : Setting) (w : Walk H) : Prop where
  limit : w.adapter.defaultTimeout = k.timeout
  names : (k.rows.map fun row => row.name).Nodup
  ids : (k.rows.map fun row => row.id).Nodup
  handler : ∀ name version handler, w.adapter.registry.find? name version = some handler →
    ∀ context input, ∃ reply, k.Settles (handler context input) (· = reply)
  clock : ∃ now, k.shown now

/-- A primitive that answers with its input. -/
def echoRow : PrimitiveRow := ⟨⟨7⟩, "echo", "test", .null, 1000, true, "1", ⟨0, 0⟩⟩

/-- An adapter with a handler for it. -/
def echoAdapter : Adapter Empty :=
  (Engine.create [("echo", [(anyVersion, fun _ input => .done (.ok input))])] [] .standard).adapter

/-- A setting with that primitive, in which the clock may show anything. -/
def echoing : Setting := ⟨[echoRow], echoAdapter.defaultTimeout, ⟨1⟩, fun _ => True⟩

theorem echoing_suits (d : Definition) (maxItems : Nat) :
    echoing.Suits ⟨d, echoAdapter, maxItems⟩ := by
  refine ⟨rfl, List.nodup_singleton _, List.nodup_singleton _, ?_, ⟨⟨0, 0⟩, trivial⟩⟩
  intro name version handler hfound context input
  have hecho : handler = fun _ input => .done (.ok input) := Registry.eq_of_find?_singleton hfound
  subst hecho
  exact ⟨.ok input, rfl⟩

/-- There always is an identifier of which nothing is known. -/
theorem exists_unused (s : Scene) : ∃ fresh, s.Unused fresh := by
  have hinfinite : Infinite Uuid := Infinite.of_injective Uuid.mk fun _ _ h => Uuid.mk.inj h
  obtain ⟨fresh, hfresh⟩ := Infinite.exists_notMem_finset
    ((s.memory.executions.map fun row => row.id) ++ (s.here.inFlight ++ s.here.stopped)).toFinset
  simp only [List.mem_toFinset, List.mem_append, not_or] at hfresh
  refine ⟨fresh, ?_, hfresh.2⟩
  rw [Memory.execution?, List.find?_eq_none]
  intro row hrow hid
  exact hfresh.1 (List.mem_map.mpr ⟨row, hrow, by simpa using hid⟩)

/-- In every scene every call has an answer. -/
theorem answered (h : ∃ now, k.shown now) (r : Role) (β : Type) (c : Call H β) (s : Scene) :
    ∃ reply s', k.Answers r β c s reply s' := by
  obtain ⟨now, hnow⟩ := h
  cases c with
  | store c =>
      obtain ⟨fresh, hfresh⟩ := exists_unused s
      exact ⟨_, ⟨_, s.here, _⟩, ⟨⟨fresh, now, hfresh, rfl⟩, rfl, rfl⟩, trivial⟩
  | here c => exact ⟨_, ⟨s.memory, _, _⟩, ⟨rfl, rfl, rfl⟩, trivial⟩
  | clock => exact ⟨now, s, rfl, hnow⟩
  | exchange r => exact ⟨none, s, rfl, trivial⟩
  | custom h => exact ⟨.null, s, rfl, trivial⟩

/-! ### Primitives -/

section

variable {w : Walk H}

theorem Suits.found_settles (hk : k.Suits w) (reference : PrimitiveRef) {row? : Option PrimitiveRow}
    (hrow : ∀ row, row? = some row → row ∈ k.rows) :
    k.Settles (w.adapter.found reference (.ok row?)) (· = w.adapter.reading reference row?) := by
  cases row? with
  | none => exact rfl
  | some row =>
      rw [Adapter.found, Adapter.remember, Adapter.reading, hk.limit]
      cases hp : Primitive.ofRow row k.timeout with
      | error e => exact rfl
      | ok p => exact (replies_remember (hrow row rfl) hp).mono fun _ _ => rfl

theorem Suits.resolve_settles (hk : k.Suits w) (reference : PrimitiveRef) :
    ∃ result, k.Settles (w.adapter.resolve reference) (· = result) := by
  rw [Adapter.resolve_eq]
  refine ⟨w.adapter.direct k.rows reference,
    (replies_cached reference).mono fun cached hcached => ?_⟩
  cases cached with
  | some p =>
      obtain ⟨hfits, row, hrow, hp⟩ := hcached p rfl
      obtain ⟨hid, hname⟩ := Primitive.ofRow_eq_ok hp
      rw [hid, hname] at hfits
      rw [Adapter.direct, PrimitiveRef.row?_eq_some ⟨hk.ids, hk.names⟩ hrow hfits, Adapter.reading,
        hk.limit]
      exact hp.symm
  | none =>
      refine (replies_find reference).mono fun reply hreply => ?_
      subst hreply
      exact hk.found_settles reference fun row => PrimitiveRef.mem_of_row?

/-- A handler that is called for the execution of a setting has one answer to an input. -/
theorem Suits.invoke_settles (hk : k.Suits w) {p : Primitive} {handler : Handler H} {input : Json}
    {site : CallSite} (hhandler : w.adapter.gate p input = .ok handler)
    (hstop : site.stop = some k.execution) :
    ∃ outcome, k.Settles (w.adapter.invoke p handler input site) (· = outcome) := by
  obtain ⟨reply, hreply⟩ := hk.handler _ _ handler (Adapter.mem_registry_of_gate hhandler)
    ⟨p.info, w.adapter.environment⟩ input
  refine ⟨Adapter.outcome p (.finished reply), ?_⟩
  simp only [Adapter.invoke, hstop]
  refine replies_clock fun startedAt _ => ⟨hreply.mono fun _ h => ?_, ?_⟩
  · subst h
    refine replies_clock fun finishedAt _ => ?_
    exact (replies_insertAudit _).mono fun _ _ => rfl
  · rintro c ⟨⟩
    exact replies_isStopped

/-- A primitive that is run for the execution of a setting has one answer to an input. -/
theorem Suits.adapter_settles (hk : k.Suits w) (reference : PrimitiveRef) (input : Json)
    (site : CallSite) (hstop : site.stop = some k.execution) :
    ∃ outcome, k.Settles (w.adapter.execute reference input site) (· = outcome) := by
  obtain ⟨resolved, hresolved⟩ := hk.resolve_settles reference
  cases resolved with
  | error e => exact ⟨.error e, hresolved.andThen fun _ h => by rw [h]; rfl⟩
  | ok p =>
      cases hgate : w.adapter.gate p input with
      | error e =>
          refine ⟨.error e, hresolved.andThen fun _ h => ?_⟩
          simp only [h, hgate]
          rfl
      | ok handler =>
          obtain ⟨outcome, houtcome⟩ := hk.invoke_settles hgate hstop
          refine ⟨outcome, hresolved.andThen fun _ h => ?_⟩
          simp only [h, hgate]
          exact houtcome

theorem Suits.adapter_returns (hk : k.Suits w) (reference : PrimitiveRef) (input : Json)
    {site : CallSite} (hstop : site.stop = some k.execution) :
    k.Settles (w.adapter.execute reference input site) fun _ => True := by
  obtain ⟨outcome, houtcome⟩ := hk.adapter_settles reference input site hstop
  exact houtcome.mono fun _ _ => trivial

end

end Setting

end Workflow
