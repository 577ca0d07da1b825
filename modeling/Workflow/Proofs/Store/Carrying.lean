import Mathlib.Data.Prod.Lex
import Workflow.Proofs.Store.Reading

/-!
# A database that obeys

Tables as a value, with statements carried out on them at once.
-/

namespace Workflow.Sql

/-! ### Constraints -/

instance (tables : Tables) (rows : List ResultRow) (column : String) (c : Constraint) :
    Decidable (c.Holds tables rows column) :=
  match c with
  | .primaryKey => inferInstanceAs (Decidable (_ ∧ _))
  | .notNull => inferInstanceAs (Decidable (∀ row ∈ rows, _))
  | .unique => inferInstanceAs (Decidable (rows.Pairwise _))
  | .among _ => inferInstanceAs (Decidable (∀ row ∈ rows, _ ∨ ∃ word ∈ _, _))
  | .refers _ _ _ => inferInstanceAs (Decidable (∀ row ∈ rows, _ ∨ ∃ r ∈ _, _))
  | .initially _ => .isTrue trivial

theorem Schema.accepts_iff {s : Schema} {tables : Tables} {rows : List ResultRow} :
    ((∀ column ∈ s.table.columns, ∀ row ∈ rows, (row.cell column.1).fits column.2 = true) ∧
      ∀ entry ∈ s.constraints, ∀ c ∈ entry.2, c.Holds tables rows entry.1) ↔
      s.Accepts tables rows :=
  ⟨fun h => ⟨h.1, h.2⟩, fun h => ⟨h.types, h.constraints⟩⟩

instance (s : Schema) (tables : Tables) (rows : List ResultRow) :
    Decidable (s.Accepts tables rows) := decidable_of_iff _ Schema.accepts_iff

/-! ### Statements -/

/-- Rows in the order of a column, if there is one. -/
def arranged (order : Option String) (rows : List ResultRow) : List ResultRow :=
  match order with
  | none => rows
  | some column => rows.mergeSort fun a b => (a.cell column).atMost (b.cell column)

/-- Puts rows in the place of those of a table, if the table can hold them. -/
def write (s : Schema) (tables : Tables) (rows : List ResultRow) (reply : Reply) :
    Except String Reply × Tables :=
  if s.Accepts tables rows then (.ok reply, Function.update tables s.table.name rows)
  else (.error "constraint violated", tables)

/-- Carries out a statement. -/
def carryOut (statement : Statement) (tables : Tables) : Except String Reply × Tables :=
  match statement with
  | .select table tests order =>
    let rows := arranged order ((tables table.name).filter (·.passes (tests.map Test.cell)))
    (.ok ⟨rows.map (·.project table.columnNames), rows.length⟩, tables)
  | .insert table values =>
    match Schema.ofName? table.name with
    | none => (.error "no such table", tables)
    | some s =>
      match s.newRow? values with
      | none => (.error "no value", tables)
      | some row =>
        write s tables (tables table.name ++ [row]) ⟨[row.project table.columnNames], 1⟩
  | .update table changes tests =>
    match Schema.ofName? table.name with
    | none => (.error "no such table", tables)
    | some s =>
      write s tables
        ((tables table.name).map fun row =>
          if row.passes (tests.map Test.cell) then row.change changes else row)
        ⟨[], (tables table.name).countP (·.passes (tests.map Test.cell))⟩
  | .script _ => (.error "no such statement", tables)

section

variable {tables : Tables} {s : Schema} {rows : List ResultRow} {reply : Reply}

theorem arranged_perm (order : Option String) (rows : List ResultRow) :
    (arranged order rows).Perm rows := by
  cases order with
  | none => exact .refl rows
  | some column => exact List.mergeSort_perm rows _

theorem pairwise_arranged (order : Option String) (rows : List ResultRow) :
    ∀ column ∈ order,
      (arranged order rows).Pairwise fun a b => (a.cell column).atMost (b.cell column) = true := by
  rintro column rfl
  refine List.pairwise_mergeSort (fun a b c hab hbc => ?_) (fun a b => ?_) rows
  · exact decide_eq_true ((of_decide_eq_true hab).trans (of_decide_eq_true hbc))
  · simpa [Cell.atMost] using le_total (a.cell column).rank (b.cell column).rank

theorem write_written :
    Written s tables rows reply (write s tables rows reply).1 (write s tables rows reply).2 := by
  rw [write]
  split
  case isTrue h => exact .made h
  case isFalse h => exact .refused h _

/-- Whether what a statement is about is there. -/
def Statement.Known : Statement → Prop
  | .select _ _ _ => True
  | .insert table values =>
    ∃ s row, Schema.ofName? table.name = some s ∧ s.newRow? values = some row
  | .update table _ _ => ∃ s, Schema.ofName? table.name = some s
  | .script _ => True

theorem Sent.known {s : Statement} (h : Sent s) : s.Known := by
  obtain ⟨β, fresh, now, call, rfl⟩ | ⟨row, rfl⟩ := h
  · cases call with
    | touchLastRun id instant => exact ⟨Schema.workflows, rfl⟩
    | createExecution new => exact ⟨Schema.executions, _, rfl, rfl⟩
    | finishExecution id f => exact ⟨Schema.executions, rfl⟩
    | insertAudit record => exact ⟨Schema.audits, _, rfl, rfl⟩
    | _ => trivial
  · exact ⟨Schema.workflows, _, rfl, rfl⟩

theorem carryOut_carried {statement : Statement} {q : Query} (hknown : statement.Known)
    (hq : statement.query? = some q) :
    Carried statement.params tables q (carryOut statement tables).1
      (carryOut statement tables).2 := by
  cases statement with
  | select table tests order =>
      cases hq
      refine .select ?_ (pairwise_arranged order _)
      rw [bound_select]
      exact arranged_perm order _
  | insert table values =>
      cases hq
      obtain ⟨s, row, hs, hrow⟩ := hknown
      refine .insert hs ((bound_insert table values).symm ▸ hrow) ?_
      simp only [carryOut, hs, hrow]
      exact write_written
  | update table changes tests =>
      cases hq
      obtain ⟨s, hs⟩ := hknown
      obtain ⟨hchanges, htests⟩ := bound_update table changes tests
      refine .update hs ?_
      rw [hchanges, htests]
      simp only [carryOut, hs]
      exact write_written
  | script text => cases hq

/-- There is a database that obeys. -/
theorem obeys_carryOut : Obeys carryOut id := by
  intro s q tables hsent hread
  rw [read_text hsent.plain] at hread
  exact carryOut_carried hsent.known hread

end

end Workflow.Sql
