import Workflow.Json.Fault

/-!
# Documents

A document is a value before it is known to be good: it keeps the members of an
object in the order of the text, repeated keys included, the place of each part in
the text, and the fault at which reading stopped.  Data is decoded from documents,
so that of several faults the one that comes first in the text is reported.
-/

namespace Workflow.Json

/-- Byte offsets of a value in its text.  `resume` is the offset at which the enclosing
array or object stands when it is closed right after this value. -/
structure Span where
  start : Nat
  stop : Nat
  resume : Nat

/-- Where a document comes from: a text, a value, or a part that was set aside until the
kind of the whole was known. -/
inductive Origin where
  | text (span : Span)
  | value
  | buffered

/-- A value with its origin.  The fault of an array or object is the one that ended it
after the items or members listed.  A member is a key, the offset at which its object
stands when it is closed right after the key, and a document. -/
inductive Document where
  | null (origin : Origin)
  | bool (origin : Origin) (b : Bool)
  | num (origin : Origin) (n : Number)
  | str (origin : Origin) (s : String)
  | arr (origin : Origin) (items : List Document) (fault : Option Fault)
  | obj (origin : Origin) (members : List (String × Nat × Document)) (fault : Option Fault)
  | bad (fault : Fault)

namespace Document

/-- The origin of a document; none if reading failed at its start. -/
def origin? : Document → Option Origin
  | .null o | .bool o _ | .num o _ | .str o _ | .arr o _ _ | .obj o _ _ => some o
  | .bad _ => none

def span? (d : Document) : Option Span :=
  match d.origin? with
  | some (.text span) => some span
  | _ => none

def stop? (d : Document) : Option Nat := d.span?.map Span.stop

/-- The offset to which a fault without a place belongs when this part is given up. -/
def resume? (d : Document) : Option Nat := d.span?.map Span.resume

mutual

def ofJson (origin : Origin) : Json → Document
  | .null => .null origin
  | .bool b => .bool origin b
  | .num n => .num origin n
  | .str s => .str origin s
  | .arr items => .arr origin (ofItems origin items) none
  | .obj fields => .obj origin (ofFields origin fields) none

def ofItems (origin : Origin) : List Json → List Document
  | [] => []
  | v :: rest => ofJson origin v :: ofItems origin rest

def ofFields (origin : Origin) : List (String × Json) → List (String × Nat × Document)
  | [] => []
  | (k, v) :: rest => (k, 0, ofJson origin v) :: ofFields origin rest

end

mutual

/-- The value of a document, or its first fault.  Of repeated keys the last one counts. -/
def toJson : Document → Except Fault Json
  | .null _ => .ok .null
  | .bool _ b => .ok (.bool b)
  | .num _ n => .ok (.num n)
  | .str _ s => .ok (.str s)
  | .arr _ items fault => do
    let values ← itemValues items
    match fault with
    | some f => .error f
    | none => .ok (.arr values)
  | .obj _ members fault => do
    let pairs ← memberValues members
    match fault with
    | some f => .error f
    | none => .ok (Json.ofPairs pairs)
  | .bad f => .error f

def itemValues : List Document → Except Fault (List Json)
  | [] => .ok []
  | d :: rest => do
    let v ← toJson d
    let vs ← itemValues rest
    .ok (v :: vs)

def memberValues : List (String × Nat × Document) → Except Fault (List (String × Json))
  | [] => .ok []
  | (k, _, d) :: rest => do
    let v ← toJson d
    let vs ← memberValues rest
    .ok ((k, v) :: vs)

end

mutual

/-- The document set aside: without places, or its first fault. -/
def buffer : Document → Except Fault Document
  | .null _ => .ok (.null .buffered)
  | .bool _ b => .ok (.bool .buffered b)
  | .num _ n => .ok (.num .buffered n)
  | .str _ s => .ok (.str .buffered s)
  | .arr _ items fault => do
    let items ← bufferItems items
    match fault with
    | some f => .error f
    | none => .ok (.arr .buffered items none)
  | .obj _ members fault => do
    let members ← bufferMembers members
    match fault with
    | some f => .error f
    | none => .ok (.obj .buffered members none)
  | .bad f => .error f

def bufferItems : List Document → Except Fault (List Document)
  | [] => .ok []
  | d :: rest => do
    let d ← buffer d
    let rest ← bufferItems rest
    .ok (d :: rest)

def bufferMembers :
    List (String × Nat × Document) → Except Fault (List (String × Nat × Document))
  | [] => .ok []
  | (k, _, d) :: rest => do
    let d ← buffer d
    let rest ← bufferMembers rest
    .ok ((k, 0, d) :: rest)

end

mutual

def depth : Document → Nat
  | .arr _ items _ => depthItems items + 1
  | .obj _ members _ => depthMembers members + 1
  | _ => 0

def depthItems : List Document → Nat
  | [] => 0
  | d :: rest => max (depth d) (depthItems rest)

def depthMembers : List (String × Nat × Document) → Nat
  | [] => 0
  | (_, _, d) :: rest => max (depth d) (depthMembers rest)

end

def found : Document → Found
  | .null _ => .null
  | .bool _ b => .bool b
  | .num _ n => .num n
  | .str _ s => .str s
  | .arr _ _ _ => .arr
  | .obj _ _ _ => .obj
  | .bad _ => .null

/-- The fault of a document that is not of the expected kind.  It is reported after a
scalar and before an array or object. -/
def mismatch (expected : String) (d : Document) : Fault :=
  match d with
  | .bad f => f
  | .arr o _ _ | .obj o _ _ =>
    match o with
    | .text span => .atOffset (.invalidType d.found expected) span.start
    | _ => .unplaced (.invalidType d.found expected)
  | d => ⟨.invalidType d.found expected, d.stop?⟩

end Document

end Workflow.Json
