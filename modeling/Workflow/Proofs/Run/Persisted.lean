import Workflow.Proofs.Run.Audit
import Workflow.Proofs.Run.Report
import Workflow.Proofs.Run.Terminal

/-!
# What is reported and what is persisted

A run reports the error of its own end.  If it was the run that ended the execution, or if it read
that the execution had ended before, then this is the error of the row.  But if a request to cancel
comes while the run walks, then the row has the error of the request, and the run goes on to report
its own: it takes over the state of the row only.  The two errors differ then, since no failure of a
run has the text of a request.
-/

namespace Workflow

open Proc

variable {H β : Type} {engine : Engine H} {d : Definition} {request : RunRequest} {s s' s₀ : Scene}
  {row : ExecutionRow} {id wid : Uuid} {workflows₀ : List WorkflowRow} {r : Role}

/-! ### Texts of failures -/

/-- A text begins with a letter, which is not the given one. -/
def BeginsOther (letter : Char) (text : String) : Prop :=
  ∃ first rest, first ≠ letter ∧ text.toList = first :: rest

namespace BeginsOther

variable {letter : Char} {text : String}

theorem append (h : BeginsOther letter text) (more : String) :
    BeginsOther letter (text ++ more) := by
  obtain ⟨first, rest, hfirst, htext⟩ := h
  exact ⟨first, rest ++ more.toList, hfirst, by rw [String.toList_append, htext, List.cons_append]⟩

theorem of_graph (e : GraphError) : BeginsOther 'c' e.message := by
  cases e with
  | duplicateNode id => exact append (append ⟨'d', _, by decide, rfl⟩ _) _
  | unknownNode id side => exact append (append (append (append ⟨'e', _, by decide, rfl⟩ _) _) _) _
  | missingTrigger => exact ⟨'w', _, by decide, rfl⟩
  | multipleTriggers count => exact append (append ⟨'w', _, by decide, rfl⟩ _) _
  | cycle => exact ⟨'w', _, by decide, rfl⟩

theorem of_failure (e : RunError) : BeginsOther 'c' e.message := by
  cases e with
  | graph e => exact of_graph e
  | cancelled => exact ⟨'e', _, by decide, rfl⟩
  | triggerMismatch workflow expected found =>
      exact append (append (append (append (append (append ⟨'w', _, by decide, rfl⟩ _) _) _) _) _) _
  | loopIteration nodeId index cause =>
      exact append (append (append (append (append ⟨'l', _, by decide, rfl⟩ _) _) _) _) _
  | parallelBranch nodeId branch cause =>
      exact append (append (append (append (append ⟨'p', _, by decide, rfl⟩ _) _) _) _) _
  | invalidConfig nodeId message =>
      exact append (append (append ⟨'n', _, by decide, rfl⟩ _) _) _
  | notList nodeId found => exact append (append (append ⟨'l', _, by decide, rfl⟩ _) _) _
  | primitive nodeId cause => exact append (append (append ⟨'n', _, by decide, rfl⟩ _) _) _
  | aborted id message => exact append (append (append ⟨'e', _, by decide, rfl⟩ _) _) _
  | workflowDisabled id => exact append (append ⟨'w', _, by decide, rfl⟩ _) _
  | nodeNotFound nodeId => exact append (append ⟨'n', _, by decide, rfl⟩ _) _
  | invalidDefinition message => exact append ⟨'i', _, by decide, rfl⟩ _
  | workflowNotFound reference => exact append ⟨'w', _, by decide, rfl⟩ _
  | store cause => exact append ⟨'d', _, by decide, rfl⟩ _

end BeginsOther

/-- No failure of a run has the text that a request to cancel leaves. -/
theorem RunError.message_ne_cancelled (e : RunError) : some e.message ≠ cancelFinish.error := by
  intro h
  obtain ⟨first, rest, hfirst, htext⟩ := BeginsOther.of_failure e
  rw [Option.some.inj h] at htext
  exact hfirst (List.cons.inj (htext.symm.trans (by rfl))).1

/-! ### Notes of a run -/

namespace Log

variable {log : Log} {n : Note}

/-- The notes of a run and its branches, in any order. -/
def ofRun (log : Log) : Multiset Note := (log.notesOf .owner : Multiset Note) + log.notesOf .branch

theorem mem_ofRun : n ∈ log.ofRun ↔ ∃ r : Role, r.Walks ∧ (r, n) ∈ log := by
  rw [ofRun, Multiset.mem_add, Multiset.mem_coe, Multiset.mem_coe, mem_notesOf, mem_notesOf]
  constructor
  · rintro (h | h)
    · exact ⟨.owner, .inl rfl, h⟩
    · exact ⟨.branch, .inr rfl, h⟩
  · rintro ⟨r, rfl | rfl, h⟩
    · exact .inl h
    · exact .inr h

/-- A run ordered the end of its execution when it had ended before. -/
def Refused (id : Uuid) (log : Log) : Prop := ∃ f, Note.finished id f (.ok false) ∈ log.ofRun

end Log

/-- The notes of a run are those of its own calls. -/
theorem Scene.tallies_notes :
    Tallies (Scene.Answers (H := H)) Call.noted fun s => s.log.ofRun := by
  have hown : ∀ (r : Role) (notes : List Note),
      Log.notesOf r (notes.map fun n => (r, n)) = notes := by
    intro r notes
    simp [Log.notesOf, List.filterMap_map]
  have hother : ∀ (r t : Role) (notes : List Note), t ≠ r →
      Log.notesOf r (notes.map fun n => (t, n)) = [] := by
    intro r t notes ht
    simp [Log.notesOf, List.filterMap_map, ht]
  constructor
  · rintro r β c s reply s' (rfl | rfl) h
    · simp only [Log.ofRun, h.log_eq, Log.notesOf_append, hown, hother .branch .owner _ (by decide),
        List.append_nil, ← Multiset.coe_add]
      exact add_right_comm _ _ _
    · simp only [Log.ofRun, h.log_eq, Log.notesOf_append, hown, hother .owner .branch _ (by decide),
        List.append_nil, ← Multiset.coe_add]
      exact (add_assoc _ _ _).symm
  · intro r β c s reply s' hr h
    have howner : r ≠ .owner := by rcases hr with rfl | rfl <;> decide
    have hbranch : r ≠ .branch := by rcases hr with rfl | rfl <;> decide
    simp only [Log.ofRun, h.log_eq, Log.notesOf_append, hother .owner r _ howner,
      hother .branch r _ hbranch, List.append_nil]

/-! ### Rows that were read -/

/-- What was read of an execution that had ended is the row that it has. -/
def Scene.ReadsLast (id : Uuid) (s : Scene) : Prop :=
  ∀ r row status, (r, Note.found id (.ok (some row))) ∈ s.log → row.state = .ok status →
    status.isTerminal = true → s.log.grants id ≠ [] ∧ s.memory.execution? id = some row

theorem Standing.lasts_read : Standing.Lasts H row wid workflows₀ (Scene.ReadsLast row.id) := by
  intro r s s' h hs hreads t found status hmem hstate hterm
  rcases moves_cases hs with halike | ⟨n, -, hnoted⟩
  · rw [halike.log] at hmem
    rw [halike.log, halike.execution?]
    exact hreads t found status hmem hstate hterm
  · rw [hnoted.log, List.mem_append, List.mem_singleton] at hmem
    rcases hmem with hbefore | hnow
    · obtain ⟨hended, hrow⟩ := hreads t found status hbefore hstate hterm
      obtain ⟨hgrants, hexec⟩ := h.moves_ended hs hended
      exact ⟨hgrants ▸ hended, hexec.trans hrow⟩
    · obtain ⟨rfl, rfl⟩ := Prod.mk.inj hnow
      obtain ⟨-, hmem, hreply⟩ := hnoted.effect
      have hrow : s.memory.execution? row.id = some found := (Except.ok.inj hreply).symm
      have hgrants : s'.log.grants row.id = s.log.grants row.id := by simp [hnoted.log, Log.grants]
      refine ⟨fun hnone => ?_, by rw [hmem, hrow]⟩
      rcases h.state with ⟨-, hbegun⟩ | ⟨_, _, _, hended, -⟩
      · obtain rfl := Option.some.inj (hrow.symm.trans hbegun)
        rw [h.began] at hstate
        cases hstate
        cases hterm
      · rw [hgrants, hended] at hnone
        cases hnone

/-- A run has not made its first call, or it is live and what was read of its end is true. -/
theorem reading_of_later (hclient : engine.adapter.registry.IsClient) (hlog : s₀.log = [])
    {a : Runs H} (ha : (engine.initial d request s₀).Later a) :
    a = engine.initial d request s₀ ∨
      ∃ row, Live row d.id s₀.memory.workflows a ∧ a.state.ReadsLast row.id := by
  induction ha with
  | refl => exact .inl rfl
  | @tail a b hbefore hmove ih =>
      rcases ih with rfl | ⟨row, hlive, hreads⟩
      · rcases Pool.move_of_ask hmove with ⟨reply, s, hs, rfl⟩ | ⟨q, ⟨row, hrow, -⟩, -⟩
        · obtain ⟨row, rfl, hlive⟩ := Live.created hclient hlog hs
          refine .inr ⟨row, hlive, fun r found status hfound => ?_⟩
          simp [(hs.noted rfl).log, hlog] at hfound
        · simp [Scene.Created, hlog] at hrow
      · exact .inr ⟨row, hlive.move hmove, hlive.lasts (.single hmove) Standing.lasts_read hreads⟩

/-! ### The two errors -/

/-- What is noted of a run with an outcome, and how it came to the outcome. -/
theorem exists_comes (hlog : s₀.log = []) {a : Runs H}
    (ha : (engine.initial d request s₀).Later a) {o : Outcome} (hdone : a.main = .done (.ok o)) :
    ∃ row notes, o.executionId = row.id ∧ Engine.Comes row.id o notes ∧
      a.state.log.ofRun =
        {.created (.ok row)} + ({.registered row.id} + (notes + {.unregistered row.id})) := by
  obtain ⟨history, hdoes, hkept⟩ := Pool.exists_history ha hdone
  obtain ⟨row, notes, hid, hcomes, htold⟩ := Engine.run_does hdoes
  have hnone : s₀.log.ofRun = 0 := by
    rw [hlog]
    rfl
  refine ⟨row, notes, hid, hcomes, ?_⟩
  rw [hkept _ _ _ Scene.tallies_notes, htold.noted]
  exact (congrArg (· + _) hnone).trans (zero_add _)

/-- A failure of its own is not the error that a request leaves. -/
theorem Engine.Ordered.error_ne {o : Outcome} {f : Finish} {applied : Bool}
    (h : Ordered o f applied) (hstatus : o.status = .cancelled) :
    (o.error = none ∨ ∃ e : RunError, o.error = some e.message) ∧ o.error ≠ cancelFinish.error := by
  have herror : o.error = f.error := by rw [h.error, hstatus, if_neg (by decide)]
  rw [herror]
  refine ⟨h.own, ?_⟩
  rcases h.own with hnone | ⟨e, he⟩
  · rw [hnone]
    exact fun h => by cases h
  · rw [he]
    exact e.message_ne_cancelled

/-- Whether a run was refused can be told from the notes between its registration and its end. -/
theorem refused_iff {a : Runs H} {created : ExecutionRow} {notes : Multiset Note}
    (hnotes : a.state.log.ofRun =
      {.created (.ok created)} + ({.registered id} + (notes + {.unregistered id}))) :
    a.state.log.Refused id ↔ ∃ f, .finished id f (.ok false) ∈ notes := by
  simp only [Log.Refused, hnotes, Multiset.mem_add, Multiset.mem_singleton, reduceCtorEq, false_or,
    or_false]

/-- The outcome of a run that has not completed has the error of its row, unless the run was refused
the end that it ordered.  That happens exactly if a request cancels the execution while the run
walks: then the state is taken over from the row, which has the error that the request has left, and
the outcome has no error, or the text of the failure that the run has come to by itself.  The two
errors never agree then. -/
theorem error_persisted_iff (hclient : engine.adapter.registry.IsClient) (hlog : s₀.log = [])
    {a : Runs H} (ha : (engine.initial d request s₀).Later a) {o : Outcome}
    (hdone : a.main = .done (.ok o)) :
    ∃ last, a.state.memory.execution? o.executionId = some last ∧ last.state = .ok o.status ∧
      (o.status ≠ .completed →
        (o.error = last.error ↔ ¬a.state.log.Refused o.executionId)) ∧
      (a.state.log.Refused o.executionId → o.status = .cancelled ∧
        last.error = some "cancelled by request" ∧
        (o.error = none ∨ ∃ e : RunError, o.error = some e.message)) := by
  rcases reading_of_later hclient hlog ha with rfl | ⟨row, hlive, hreads⟩
  · cases hdone
  have hended := hlive.sound.main
  rw [hdone] at hended
  obtain ⟨l, -, ⟨hcons, -⟩, r, f, hgrants, hreport, -⟩ := hended _ (.refl _)
  obtain ⟨created, notes, hcreated, hcomes, hnotes⟩ := exists_comes hlog ha hdone
  obtain ⟨hid, hstatus⟩ : o.executionId = row.id ∧ o.status = f.status := by
    cases hreport with
    | outcome hid _ hstatus _ => exact ⟨hid, hstatus⟩
  obtain ⟨last, hlast, hstate, herror⟩ : ∃ last, a.state.memory.execution? row.id = some last ∧
      last.state = .ok f.status ∧ last.error = f.error := by
    rcases hcons.state with ⟨hnone, -⟩ | ⟨r', f', last, hgrants', hlast, hstate, herror, -⟩
    · simp [hgrants] at hnone
    · obtain ⟨rfl, rfl⟩ : r = r' ∧ f = f' := by simpa [hgrants] using hgrants'
      exact ⟨last, hlast, hstate, herror⟩
  rw [← hcreated, hid] at hcomes hnotes
  have hmem : ∀ n ∈ notes, n ∈ a.state.log.ofRun := by
    intro n hn
    rw [hnotes]
    simp [hn]
  rw [hid, refused_iff hnotes]
  refine ⟨last, hlast, hstatus ▸ hstate, ?_⟩
  cases hcomes with
  | @read found hfound hterm hreported =>
      -- The row that was read at the start is still that of the execution.
      obtain ⟨t, -, hread⟩ := Log.mem_ofRun.mp (hmem _ (Multiset.mem_singleton_self _))
      obtain rfl := Option.some.inj (hlast.symm.trans (hreads t found _ hread hfound hterm).2)
      have hnever : ¬∃ h, Note.finished row.id h (.ok false) ∈
          ({.found row.id (.ok (some last))} : Multiset Note) := by simp
      exact ⟨fun _ => iff_of_true hreported hnever, fun hrefused => absurd hrefused hnever⟩
  | @walked reply g applied rest hordered hquiet =>
      have horders : ∀ x h answer, Note.finished x h answer ∉ rest := fun x h answer hn =>
        hquiet _ hn trivial
      cases applied with
      | true =>
          obtain ⟨t, -, hgranted⟩ :=
            Log.mem_ofRun.mp (hmem (.finished row.id g (.ok true)) (by simp))
          have hgrant : (t, g) ∈ a.state.log.grants row.id := (Log.mem_grants _ _).mpr hgranted
          obtain ⟨rfl, rfl⟩ : t = r ∧ g = f := by simpa [hgrants] using hgrant
          have hnever : ¬∃ h, Note.finished row.id h (.ok false) ∈ ({.found row.id reply} +
              ({.finished row.id g (.ok true)} + rest) : Multiset Note) := by
            simp [horders]
          refine ⟨fun hne => ?_, fun hrefused => absurd hrefused hnever⟩
          rw [hordered.error, if_neg hne, herror]
          exact iff_of_true rfl hnever
      | false =>
          have hrefused : ∃ h, Note.finished row.id h (.ok false) ∈ ({.found row.id reply} +
              ({.finished row.id g (.ok false)} + rest) : Multiset Note) := ⟨g, by simp⟩
          -- The run has ended nothing, so a request or a handler has.
          have hcancelled : f = cancelFinish := by
            rcases (hcons.granted (r, f) (by simp [hgrants])).2 with ⟨rfl, -⟩ | ⟨-, hf⟩
            · have hgrant : (Role.owner, f) ∈ a.state.log.grants row.id := by simp [hgrants]
              have hown := Log.mem_ofRun.mpr ⟨.owner, .inl rfl, (Log.mem_grants _ _).mp hgrant⟩
              rw [hnotes] at hown
              simp [horders] at hown
            · exact hf
          subst hcancelled
          obtain ⟨hown, hne⟩ := hordered.error_ne hstatus
          rw [herror]
          exact ⟨fun _ => iff_of_false hne (not_not_intro hrefused), fun _ => ⟨hstatus, rfl, hown⟩⟩

/-- A run of one node whose execution is cancelled when the visit of the node begins: it reports its
own failure, and the row has the error of the request. -/
theorem errors_differ_when_cancelled :
    let d : Definition := .create ⟨0⟩ "single" .manual [⟨"start", .trigger, none, .null⟩] []
    let engine : Engine Empty := .create [] [] .standard
    ∃ (a : Runs Empty) (o : Outcome) (last : ExecutionRow),
      (engine.initial d (.plain .manual .null) .empty).Later a ∧ a.main = .done (.ok o) ∧
      a.state.memory.execution? o.executionId = some last ∧ o.status = .cancelled ∧
      a.state.log.Refused o.executionId ∧ o.error = some "execution cancelled" ∧
      last.error = some "cancelled by request" := by
  intro d engine
  let now : Time.Instant := ⟨0, 0⟩
  let request : RunRequest := .plain .manual .null
  let row := (request.toNew d.id).toRow ⟨0⟩ now
  let f : Finish := ⟨.cancelled, none, some "execution cancelled"⟩
  -- The memory and the scene after each of the calls that are noted.
  let m₁ := Memory.empty.addExecution row
  let m₂ := m₁.ended row.id cancelFinish now
  let s₁ : Scene := ⟨m₁, .empty, [(.owner, .created (.ok row))]⟩
  let s₂ : Scene := ⟨m₁, ⟨[], [row.id], []⟩, s₁.log ++ [(.owner, .registered row.id)]⟩
  let s₃ : Scene := { s₂ with log := s₂.log ++ [(.owner, .found row.id (.ok (some row)))] }
  let s₄ : Scene := ⟨m₂, s₃.here, s₃.log ++ [(.request, .finished row.id cancelFinish (.ok true))]⟩
  let s₅ : Scene := ⟨m₂, ⟨[], [row.id], [row.id]⟩, s₄.log ++ [(.request, .signalled row.id)]⟩
  let s₆ : Scene := { s₅ with log := s₅.log ++ [(.owner, .finished row.id f (.ok false))] }
  let last := row.finish cancelFinish now
  let s₇ : Scene := { s₆ with log := s₆.log ++ [(.owner, .found row.id (.ok (some last)))] }
  let s₈ : Scene := ⟨m₂, ⟨[], [], [row.id]⟩, s₇.log ++ [(.owner, .unregistered row.id)]⟩
  have hcreate : Scene.Answers .owner _
      (.store (.createExecution (request.toNew d.id)) : Call Empty _) .empty (.ok row) s₁ := by
    refine ⟨⟨⟨0⟩, now, ⟨rfl, ?_, ?_⟩, rfl⟩, rfl, rfl⟩ <;> simp [Scene.empty, Local.empty]
  have hregister : Scene.Answers .owner _ (.here (.register row.id) : Call Empty _) s₁ () s₂ :=
    ⟨rfl, rfl, rfl⟩
  have hfound : Scene.Answers .owner _ (.store (.getExecution row.id) : Call Empty _) s₂
      (.ok (some row)) s₃ := by
    refine ⟨⟨⟨1⟩, now, ⟨rfl, ?_, ?_⟩, rfl⟩, rfl, rfl⟩ <;> simp [s₂, row]
  have hfinish : Scene.Answers .request _
      (.store (.finishExecution row.id cancelFinish) : Call Empty _) s₃ (.ok true) s₄ := by
    refine ⟨⟨⟨1⟩, now, ⟨rfl, ?_, ?_⟩, rfl⟩, rfl, rfl⟩ <;> simp [s₃, s₂, row]
  have hsignal : Scene.Answers .request _ (.here (.signal row.id) : Call Empty _) s₄ () s₅ :=
    ⟨rfl, rfl, rfl⟩
  have hstopped : Scene.Answers .owner _ (.here (.isStopped row.id) : Call Empty _) s₅ true s₅ :=
    ⟨rfl, rfl, rfl⟩
  have hrefused : Scene.Answers .owner _ (.store (.finishExecution row.id f) : Call Empty _) s₅
      (.ok false) s₆ := by
    refine ⟨⟨⟨1⟩, now, ⟨rfl, ?_, ?_⟩, rfl⟩, rfl, rfl⟩ <;> simp [s₅, row]
  have hlast : Scene.Answers .owner _ (.store (.getExecution row.id) : Call Empty _) s₆
      (.ok (some last)) s₇ := by
    refine ⟨⟨⟨1⟩, now, ⟨rfl, ?_, ?_⟩, rfl⟩, rfl, rfl⟩ <;> simp [s₆, s₅, row]
  have hunregister : Scene.Answers .owner _ (.here (.unregister row.id) : Call Empty _) s₇ () s₈ :=
    ⟨rfl, rfl, rfl⟩
  have hcreated : s₃.Created row := by simp [Scene.Created, s₃, s₂, s₁]
  have hstarted := (((Runs.Later.ofMain (a := engine.initial d request .empty) .refl
    (.ask hcreate)).ofMain (.ask hregister)).ofMain .ownStarted).ofMain
      (.own (.attempt (.ask (b := now) rfl)))
  have hread := hstarted.ofMain (.own (.attempt (.ask hfound)))
  have hcancelled := ((hread.ofOpened hcreated).ofRequest (.ask hfinish)).ofRequest (.ask hsignal)
  -- The visit of the node and then the run are told to stop.
  have htold := ((hcancelled.ofMain (.own (.attempt (.ask (b := now) rfl)))).ofMain
    (.own (.attempt (.ask hstopped)))).ofMain (.own (.attempt (.ask hstopped)))
  have hconcluded := ((htold.ofMain (.own (.attempt (.ask hrefused)))).ofMain
    (.own (.attempt (.ask hlast)))).ofMain (.own (.attempt (.ask (b := now) rfl)))
  have hover := ((hconcluded.ofMain (.own .attemptDone)).ofMain
    (.own (.ask hunregister))).ofMain .ownDone
  obtain ⟨row', hrow, -, -, hends⟩ :=
    error_persisted_iff (d := d) Registry.isClient_nil rfl hover rfl
  have hmem : s₈.log.Refused row.id :=
    ⟨f, Log.mem_ofRun.mpr ⟨.owner, .inl rfl, by simp [s₈, s₇, s₆]⟩⟩
  obtain ⟨hstatus, herror, -⟩ := hends hmem
  exact ⟨_, _, row', hover, rfl, hrow, hstatus, hmem, rfl, herror⟩

end Workflow
