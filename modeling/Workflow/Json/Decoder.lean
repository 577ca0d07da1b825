import Workflow.Json.Reader

/-!
# Decoding data

Decoders turn documents into data.  A record may be written as an object or as an
array of its fields in their declared order; a choice may be marked by a tag inside
the object.  Whatever the form, the fault that comes first in the document is the
one that is reported.
-/

namespace Workflow.Json

abbrev Decoder (α : Type) := Document → Except Fault α

namespace Decoder

variable {α β : Type}

/-- The result of decoding a part, with faults placed where the enclosing array or object
stands when it is given up after that part. -/
def part (decode : Decoder α) : Decoder α := fun d =>
  match decode d with
  | .ok a => .ok a
  | .error f => .error (f.place d.resume?)

def json : Decoder Json := Document.toJson

def text : Decoder String
  | .str _ s => .ok s
  | d => .error (d.mismatch "a string")

def bool : Decoder Bool
  | .bool _ b => .ok b
  | d => .error (d.mismatch "a boolean")

def int64 : Decoder Int
  | .num o (.whole i) =>
    if i < Nat.pow 2 63 then .ok i
    else .error ⟨.invalidValue (.num (.whole i)) "i64", (Document.num o (.whole i)).stop?⟩
  | d => .error (d.mismatch "i64")

def double : Decoder Float
  | .num _ n => .ok n.toFloat
  | d => .error (d.mismatch "f64")

/-- A text that is read further.  A fault in it is reported behind the text. -/
def parsed (expected : String) (parse : String → Except String α) : Decoder α
  | .str o s =>
    match parse s with
    | .ok a => .ok a
    | .error message => .error ⟨.other message, (Document.str o s).stop?⟩
  | d => .error (d.mismatch expected)

def option (decode : Decoder α) : Decoder (Option α)
  | .null _ => .ok none
  | d => (decode d).map some

def items (decode : Decoder α) : List Document → Except Fault (List α)
  | [] => .ok []
  | d :: rest => do
    let a ← part decode d
    let as ← items decode rest
    .ok (a :: as)

def list (decode : Decoder α) : Decoder (List α)
  | .arr _ ds fault => do
    let as ← items decode ds
    match fault with
    | some f => .error f
    | none => .ok as
  | d => .error (d.mismatch "a sequence")

def members (decode : Decoder α) :
    List (String × Nat × Document) → Except Fault (List (String × α))
  | [] => .ok []
  | (k, _, d) :: rest => do
    let a ← part decode d
    let as ← members decode rest
    .ok ((k, a) :: as)

def keyed (decode : Decoder α) : Decoder (Keyed α)
  | .obj _ ms fault => do
    let pairs ← members decode ms
    match fault with
    | some f => .error f
    | none => .ok (Keyed.ofList pairs)
  | d => .error (d.mismatch "a map")

def variant (variants : List (String × α)) (name : String) : Except Fault α :=
  match variants.lookup name with
  | some a => .ok a
  | none => .error (.unplaced (.unknownVariant name (variants.map Prod.fst)))

/-- The null that may stand beside the name of a variant without fields.  A part that was
set aside may also have an empty object there. -/
def unit : Decoder Unit
  | .null _ => .ok ()
  | .obj .buffered [] none => .ok ()
  | d => .error (d.mismatch "unit")

/-- One of several names: a text, or an object that has the name as its only key. -/
def name (variants : List (String × α)) : Decoder α
  | .str o s =>
    match variant variants s with
    | .ok a => .ok a
    | .error f => .error (f.place (Document.str o s).stop?)
  | .obj o ms fault =>
    match o, ms with
    | .text span, [] =>
      .error (fault.getD (.atOffset (.syntaxError .expectedValue) span.stop))
    | .text _, (key, resume, d) :: more => do
      let a ← (variant variants key).mapError (Fault.place (some resume))
      part unit d
      match fault, more with
      | some f, _ => .error f
      | none, [] => .ok a
      | none, _ :: _ => .error ⟨.syntaxError .expectedValue, d.resume?⟩
    | _, [(key, _, d)] => do
      let a ← variant variants key
      unit d
      .ok a
    | _, _ => .error (.unplaced (.invalidValue .obj "map with a single key"))
  | d =>
    match d.span? with
    | some span => .error (.atOffset (.syntaxError .expectedValue) (span.start + 1))
    | none => .error (d.mismatch "string or map")

end Decoder

/-! ### Records -/

/-- The fields a record is read from: the part at a position or under a name, with its
index in the document, and what it means that there is none. -/
structure Fields where
  find? : Nat → String → Option (Nat × Document)
  absent : Nat → String → Nat × Fault

abbrev Indexed := Nat × Fault

/-- The fault with the smaller index, the first one if they are equal. -/
def Indexed.first (a b : Indexed) : Indexed := if b.1 < a.1 then b else a

/-- A way to read a record: the names of its fields in declared order, and a function on
the fields, given the position of the first one. -/
structure Record (α : Type) where
  names : List String
  read : Nat → Fields → Except Indexed α

namespace Record

variable {α β : Type}

/-- A record without fields. -/
def pure (a : α) : Record α := ⟨[], fun _ _ => .ok a⟩

def seq (f : Record (α → β)) (x : Record α) : Record β where
  names := f.names ++ x.names
  read position fields :=
    match f.read position fields, x.read (position + f.names.length) fields with
    | .ok g, .ok a => .ok (g a)
    | .error e, .ok _ => .error e
    | .ok _, .error e => .error e
    | .error e, .error e' => .error (Indexed.first e e')

instance : Applicative Record where
  pure := Record.pure
  seq f x := Record.seq f (x ())

def field (name : String) (decode : Decoder α) (absent : Indexed → Except Indexed α) :
    Record α where
  names := [name]
  read position fields :=
    match fields.find? position name with
    | some (index, d) => (decode.part d).mapError fun f => (index, f)
    | none => absent (fields.absent position name)

def required (name : String) (decode : Decoder α) : Record α :=
  field name decode .error

def defaulted (name : String) (decode : Decoder α) (value : α) : Record α :=
  field name decode fun _ => .ok value

def optional (name : String) (decode : Decoder α) : Record (Option α) :=
  defaulted name decode.option none

/-- A field that may be null, and may be absent from an object, but not from an array. -/
def nullable (name : String) (decode : Decoder α) : Record (Option α) :=
  field name decode.option fun (index, f) =>
    match f.cause with
    | .missingField _ => .ok none
    | _ => .error (index, f)

def repeated? (names : List String) :
    Nat → List String → List (String × Nat × Document) → Option Indexed
  | _, _, [] => none
  | index, seen, (key, resume, d) :: rest =>
    if key ∈ names && key ∈ seen then
      let offset := match d with
        | .bad _ => some resume
        | d => d.span?.map fun _ => resume
      some (index, ⟨.duplicateField key, offset⟩)
    else repeated? names (index + 1) (key :: seen) rest

def member? (name : String) : Nat → List (String × Nat × Document) → Option (Nat × Document)
  | _, [] => none
  | index, (key, _, d) :: rest =>
    if key = name then some (index, d) else member? name (index + 1) rest

def elements (n : Nat) : String :=
  Decimal.intText n ++ if n = 1 then " element" else " elements"

def leftover (count : Nat) (origin : Origin) (items : List Document) (fault : Option Fault) :
    Option Fault :=
  match origin, items.drop count with
  | .text _, extra :: _ =>
    match extra, extra.span? with
    | _, some span => some (.atOffset (.syntaxError .trailingCharacters) (span.start + 1))
    | .bad f, none => some { f with cause := .syntaxError .trailingCharacters }
    | _, none => some (.unplaced (.syntaxError .trailingCharacters))
  | .text _, [] => fault.map fun f =>
    match f.cause with
    | .syntaxError .expectedArrayEnd => { f with cause := .syntaxError .trailingCharacters }
    | _ => f
  | .value, _ :: _ =>
    some (.unplaced (.invalidLength items.length "fewer elements in array"))
  | .buffered, _ :: _ =>
    some (.unplaced (.invalidLength items.length (elements count ++ " in sequence")))
  | _, [] => fault

/-- The decoder of a record: an object with its fields, or an array of them.  `title`
names the record in messages. -/
def decoder (title : String) (r : Record α) : Decoder α
  | .obj origin ms fault =>
    let stop := (Document.obj origin ms fault).stop?
    let fields : Fields :=
      ⟨fun _ name => member? name 0 ms,
        fun _ name => (ms.length, ⟨.missingField name, stop⟩)⟩
    let ended := fault.map fun f => (ms.length, f)
    let early := match repeated? r.names 0 [] ms, ended with
      | some a, some b => some (Indexed.first a b)
      | some a, none => some a
      | none, b => b
    match early, r.read 0 fields with
    | none, .ok a => .ok a
    | none, .error (_, f) => .error f
    | some (_, f), .ok _ => .error f
    | some e, .error e' => .error (Indexed.first e e').2
  | .arr origin items fault =>
    let stop := (Document.arr origin items fault).stop?
    let fields : Fields :=
      ⟨fun position _ => items[position]?.map fun d => (position, d),
        fun position _ => (position, fault.getD
          ⟨.invalidLength position (title ++ " with " ++ elements r.names.length), stop⟩)⟩
    match r.read 0 fields with
    | .error (_, f) => .error f
    | .ok a =>
      match leftover r.names.length origin items fault with
      | some f => .error f
      | none => .ok a
  | d => .error (d.mismatch title)

end Record

/-! ### Tagged choices -/

namespace Decoder

variable {α : Type}

/-- A variant without fields: whatever stands beside the tag is ignored, but an array must
have nothing there. -/
def bare (a : α) : Decoder α
  | .arr _ (_ :: ds) _ =>
    .error (.unplaced (.invalidLength (ds.length + 1) "0 elements in sequence"))
  | _ => .ok a

/-- The variant named by a tag.  A tag that was set aside may also be the index of the
variant. -/
def tag (variants : List (String × α)) : Decoder α
  | .num .buffered (.whole i) =>
    match variants[i.toNat]? with
    | some (_, a) =>
      if 0 ≤ i then .ok a
      else .error (.unplaced (.invalidType (.num (.whole i)) "variant identifier"))
    | none =>
      if 0 ≤ i then
        .error (.unplaced (.invalidValue (.num (.whole i))
          ("variant index 0 <= i < " ++ Decimal.intText variants.length)))
      else .error (.unplaced (.invalidType (.num (.whole i)) "variant identifier"))
  | .str o s =>
    match variant variants s with
    | .ok a => .ok a
    | .error f => .error (f.place (Document.str o s).stop?)
  | d => .error (d.mismatch "variant identifier")

/-- Goes through the members of an object: the tag is decoded, the others are set aside. -/
def untangle (key : String) (variants : List (String × α)) :
    Option α → List (String × Nat × Document) →
      Except Fault (Option α × List (String × Nat × Document))
  | chosen, [] => .ok (chosen, [])
  | chosen, (k, resume, d) :: rest =>
    if k = key then
      match chosen with
      | some _ =>
        let offset := match d with
          | .bad _ => some resume
          | d => d.span?.map fun _ => resume
        .error ⟨.duplicateField key, offset⟩
      | none => do
        let a ← part (tag variants) d
        untangle key variants (some a) rest
    else do
      let d ← d.buffer
      let (chosen, others) ← untangle key variants chosen rest
      .ok (chosen, (k, 0, d) :: others)

/-- A choice marked by a tag: an object with the tag among its members, or an array that
begins with it.  The variant is decoded from what remains. -/
def tagged (title key : String) (variants : List (String × Decoder α)) : Decoder α
  | .obj origin ms fault => do
    let (chosen, others) ← untangle key variants none ms
    match fault, chosen with
    | some f, _ => .error f
    | none, none => .error ⟨.missingField key, (Document.obj origin ms fault).stop?⟩
    | none, some decode => decode (.obj .buffered others none)
  | .arr origin items fault =>
    match items with
    | [] => .error (fault.getD ⟨.missingField key, (Document.arr origin items fault).stop?⟩)
    | first :: rest => do
      let decode ← part (tag variants) first
      let rest ← Document.bufferItems rest
      match fault with
      | some f => .error f
      | none => decode (.arr .buffered rest none)
  | d => .error (d.mismatch title)

/-- Data decoded from a value, or the message that says what is wrong with it. -/
def ofValue (decode : Decoder α) (v : Json) : Except String α :=
  (decode (.ofJson .value v)).mapError fun f => f.cause.message

/-- Data decoded from a text, or the message that says what is wrong with it. -/
def ofText (decode : Decoder α) (s : String) : Except String α :=
  let (d, trailing) := readDocument s
  match decode d, trailing with
  | .error f, _ => .error (f.message s)
  | .ok _, some f => .error (f.message s)
  | .ok a, none => .ok a

/-- Data decoded from the value that a text begins with.  What follows the value is not looked
at. -/
def ofStart (decode : Decoder α) (s : String) : Except String α :=
  (decode (readDocument s).1).mapError fun f => f.message s

end Decoder

end Workflow.Json
