import ZoneStore.Toml.Document

/-!
# Decoding TOML documents

A document of settings has fields that are lists of records. A list is
written as an array of tables, either as one value or as a run of sections
with doubled brackets, between which sections of other lists may stand. The
fields are visited in the order in which they first occur, and the first
that does not fit decides the error.
-/

namespace ZoneStore.Toml

inductive Error where
  | malformed
  /-- A value of the right kind was refused. -/
  | rejected (reason : String)
deriving DecidableEq, Repr

def Error.message : Error → String
  | malformed => "not a document of the expected form"
  | rejected reason => reason

structure Element where
  pairs : Pairs
  /-- A section with a header inside the table follows it, which no table of ours has. -/
  isNested : Bool

inductive Entry where
  | value (value : Value)
  | tables (elements : List Element)
  /-- A section that is no element of a list. -/
  | single

def Section.isElement (part : Section) : Bool :=
  part.isArray && part.header.length == 1

/-- The elements of a list from its open element and the sections under its key that follow. -/
def elementsOf (current : Element) : List Section → List Element
  | [] => [current]
  | part :: rest =>
    if part.isElement then current :: elementsOf ⟨part.pairs, false⟩ rest
    else elementsOf { current with isNested := true } rest

def Section.isUnder (key : String) (part : Section) : Bool :=
  part.header.head? == some key

def sectionsUnder (key : String) (parts : List Section) : List Section :=
  parts.filter (Section.isUnder key)

def sectionsBeside (key : String) (parts : List Section) : List Section :=
  parts.filter fun part => !part.isUnder key

theorem length_sectionsBeside_le (key : String) (parts : List Section) :
    (sectionsBeside key parts).length ≤ parts.length :=
  List.length_filter_le _ _

/-- The fields that sections write, in the order of their first sections. -/
def entriesOf : List Section → List (String × Entry)
  | [] => []
  | part :: rest =>
    let key := part.header.head?.getD ""
    let entry :=
      if part.isElement then .tables (elementsOf ⟨part.pairs, false⟩ (sectionsUnder key rest))
      else .single
    (key, entry) :: entriesOf (sectionsBeside key rest)
termination_by parts => parts.length
decreasing_by
  exact Nat.lt_succ_of_le (length_sectionsBeside_le _ _)

/-- The fields of a document, in the order in which they first occur. -/
def Document.entries (document : Document) : List (String × Entry) :=
  document.pairs.map (fun (key, value) => (key, .value value)) ++ entriesOf document.sections

def Value.toText : Value → Except Error String
  | .text value => .ok value
  | _ => .error .malformed

def Value.toWord : Value → Except Error Nat
  | .integer value =>
    if 0 ≤ value ∧ value ≤ 4294967295 then .ok value.toNat else .error .malformed
  | _ => .error .malformed

def Value.toTexts : Value → Except Error (List String)
  | .array values => values.mapM Value.toText
  | _ => .error .malformed

/-- How the records of one kind are decoded, from a table and from an array of their fields. -/
structure ElementDecoder (α : Type) where
  ofElement : Element → Except Error α
  ofValues : List Value → Except Error α

def ElementDecoder.ofValue {α : Type} (decoder : ElementDecoder α) : Value → Except Error α
  | .table pairs => decoder.ofElement ⟨pairs, false⟩
  | .dotted pairs => decoder.ofElement ⟨pairs, false⟩
  | .array values => decoder.ofValues values
  | _ => .error .malformed

def ElementDecoder.list {α : Type} (decoder : ElementDecoder α) : Entry → Except Error (List α)
  | .value (.array values) => values.mapM decoder.ofValue
  | .tables elements => elements.mapM decoder.ofElement
  | _ => .error .malformed

def Element.visit {α : Type} (element : Element) (start : α)
    (step : α → String × Value → Except Error α) : Except Error α := do
  let result ← element.pairs.foldlM step start
  if element.isNested then .error .malformed else .ok result

def setOnce {α : Type} (field : Option α) (value : Except Error α) : Except Error (Option α) :=
  if field.isSome then .error .malformed else value.map some

def required {α : Type} : Option α → Except Error α
  | some value => .ok value
  | none => .error .malformed

def decodeText {α : Type} (start : α) (step : α → String × Entry → Except Error α)
    (text : String) : Except Error α :=
  match Document.ofText? text with
  | some document => document.entries.foldlM step start
  | none => .error .malformed

end ZoneStore.Toml
