import Schematic.Proofs.Design.Reading
import Schematic.Proofs.Json.Variant

/-!
# The records of a design

Which records a design is made of, and which of their fields are scalars, is listed here once. A way
of writing trees differently is given by what it allows for a record and what for a scalar; the list
takes it from the records to whole projects. What is then to be shown of it, that trees which differ
in this way are read alike, follows for all records from how records, lists and maps are read.
-/

namespace Schematic.Format

open Json

section Layouts

variable (record : Layout → Json → Json → Prop) (scalar : Json → Json → Prop)

def pinLayout : Layout := [("index", scalar), ("value", scalar)]

def presetLayout : Layout := [("port", Eq), ("pin", scalar), ("apply", Eq)]

def terminalLayout : Layout :=
  [("name", scalar), ("range", scalar), ("pins", ListVariant (record (pinLayout scalar))),
   ("virtual", Eq), ("default", record (presetLayout scalar))]

def constantLayout : Layout := [("name", scalar), ("value", scalar), ("local", Eq)]

def codeParameterLayout : Layout := [("name", Eq), ("value", scalar)]

def codePortLayout : Layout :=
  [("name", Eq), ("range", scalar), ("default", record (presetLayout scalar))]

def codePortsLayout : Layout :=
  [("in", ListVariant (record (codePortLayout record scalar))),
   ("out", ListVariant (record (codePortLayout record scalar)))]

def codeLayout : Layout :=
  [("code", Eq), ("params", ListVariant (record (codeParameterLayout scalar))),
   ("ports", record (codePortsLayout record scalar))]

/-- The data of a block of a type, written differently. Where the type asks for no data, `other`
says what may stand there. -/
def DataAs (other : Json → Json → Prop) (type : String) : Json → Json → Prop :=
  match type with
  | "basic.input" => record (terminalLayout record scalar)
  | "basic.output" => record (terminalLayout record scalar)
  | "basic.constant" => record (constantLayout scalar)
  | "basic.code" => record (codeLayout record scalar)
  | _ => other

def blockLayout (data : Json → Json → Prop) : Layout := [("id", Eq), ("type", Eq), ("data", data)]

def endpointLayout : Layout := [("block", Eq), ("port", Eq)]

def wireLayout : Layout :=
  [("source", record endpointLayout), ("target", record endpointLayout), ("size", Eq)]

variable (block : Json → Json → Prop)

def graphLayout : Layout :=
  [("blocks", ListVariant block), ("wires", ListVariant (record (wireLayout record)))]

def designLayout : Layout := [("board", Eq), ("graph", record (graphLayout record block))]

/-- A project whose sub-circuits may be written differently as `R` has it. -/
def projectLayout (R : Json → Json → Prop) : Layout :=
  [("design", record (designLayout record block)), ("dependencies", MapVariant R)]

/-- A project written differently, together with its sub-circuits down to a depth. -/
def ProjectAs : (depth : Nat) → Json → Json → Prop
  | 0 => Eq
  | depth + 1 => record (projectLayout record block (ProjectAs depth))

end Layouts

section Kept

/-- What holds of the relations between values holds of those between records. -/
structure KeptByRecords (record : Layout → Json → Json → Prop) (scalar : Json → Json → Prop)
    (Keeps : (Json → Json → Prop) → Prop) : Prop where
  same : Keeps Eq
  scalars : Keeps scalar
  lists : ∀ {R}, Keeps R → Keeps (ListVariant R)
  records : ∀ {layout : Layout}, (∀ entry ∈ layout, Keeps entry.2) → Keeps (record layout)

variable {record : Layout → Json → Json → Prop} {scalar other : Json → Json → Prop}
  {Keeps : (Json → Json → Prop) → Prop} (h : KeptByRecords record scalar Keeps)

include h

theorem keeps_preset : Keeps (record (presetLayout scalar)) :=
  h.records (by simp [presetLayout, h.same, h.scalars])

theorem keeps_terminal : Keeps (record (terminalLayout record scalar)) := by
  have hpins : Keeps (ListVariant (record (pinLayout scalar))) :=
    h.lists (h.records (by simp [pinLayout, h.scalars]))
  exact h.records (by simp [terminalLayout, h.same, h.scalars, keeps_preset h, hpins])

theorem keeps_constant : Keeps (record (constantLayout scalar)) :=
  h.records (by simp [constantLayout, h.same, h.scalars])

theorem keeps_code : Keeps (record (codeLayout record scalar)) := by
  have hparameters : Keeps (ListVariant (record (codeParameterLayout scalar))) :=
    h.lists (h.records (by simp [codeParameterLayout, h.same, h.scalars]))
  have hports : Keeps (ListVariant (record (codePortLayout record scalar))) :=
    h.lists (h.records (by simp [codePortLayout, h.same, h.scalars, keeps_preset h]))
  have hsides : Keeps (record (codePortsLayout record scalar)) :=
    h.records (by simp [codePortsLayout, hports])
  exact h.records (by simp [codeLayout, h.same, hparameters, hsides])

theorem keeps_data (hother : Keeps other) (type : String) :
    Keeps (DataAs record scalar other type) := by
  unfold DataAs
  split
  case h_1 => exact keeps_terminal h
  case h_2 => exact keeps_terminal h
  case h_3 => exact keeps_constant h
  case h_4 => exact keeps_code h
  case h_5 => exact hother

end Kept

theorem dataAs_refl {record : Layout → Json → Json → Prop} {scalar other : Json → Json → Prop}
    (hrecord : ∀ layout j, record layout j j) (hother : ∀ j, other j j) (type : String) (j : Json) :
    DataAs record scalar other type j j := by
  unfold DataAs
  split
  case h_5 => exact hother j
  all_goals exact hrecord _ j

section Read

/-- A field of a record whose value is read by a reader that goes with the relation in the
layout. -/
inductive FieldRead (Reads : {α : Type} → (Json → Json → Prop) → (Nat → Json → Read α) → Prop)
    {σ : Type} (levels : Nat) :
    RecordField BlockFault σ → String × (Json → Json → Prop) → Prop
  | mk {α : Type} {name : String} {R : Json → Json → Prop} {read : Nat → Json → Read α}
      (set : α → σ → σ) :
      Reads R read → FieldRead Reads levels (field name (read levels) set) (name, R)

/-- Relations and readers go together in the ways in which designs are read: that related trees are
read alike is passed on from values to lists, records and maps of them. -/
structure ReadByRecords (record : Layout → Json → Json → Prop) (scalar : Json → Json → Prop)
    (Reads : {α : Type} → (Json → Json → Prop) → (Nat → Json → Read α) → Prop) : Prop where
  same : ∀ {α : Type} (read : Nat → Json → Read α), Reads Eq read
  scalars : Reads scalar fun _ => readScalar
  labels : Reads scalar fun _ => readLabel
  bind : ∀ {α β : Type} {R} {read : Nat → Json → Read α} {f : α → Read β}, Reads R read →
    Reads R fun levels j => read levels j >>= f
  lists : ∀ {α : Type} {R} {read : Nat → Json → Read α}, Reads R read →
    Reads (ListVariant R) fun levels => readList levels read
  maps : ∀ {α : Type} {R} {read : Nat → Json → Read α}, Reads R read →
    Reads (MapVariant R) fun levels => readMap levels read
  optionals : ∀ {α : Type} {layout} {read : Nat → Json → Read α}, Reads (record layout) read →
    Reads (record layout) fun levels => readOptional (read levels)
  records : ∀ {σ : Type} {layout} {fields : Nat → List (RecordField BlockFault σ)} (start : σ),
    (∀ levels, List.Forall₂ (FieldRead Reads levels) (fields levels) layout) →
    (∀ levels, (fields levels).Pairwise Commutes) →
    Reads (record layout) fun levels => readRecord levels fields start

variable {record : Layout → Json → Json → Prop} {scalar other block : Json → Json → Prop}
  {Reads : {α : Type} → (Json → Json → Prop) → (Nat → Json → Read α) → Prop}
  (h : ReadByRecords record scalar Reads)

include h

theorem reads_readPin : Reads (record (pinLayout scalar)) readPin := by
  apply h.bind
  apply h.records
  · intro n
    exact .cons (.mk _ h.scalars) (.cons (.mk _ h.scalars) .nil)
  · simp [pinFields, commutes_field]

theorem reads_readPreset : Reads (record (presetLayout scalar)) readPreset := by
  apply h.bind
  apply h.records
  · intro n
    exact .cons (.mk _ (h.same fun _ => readText)) (.cons (.mk _ h.scalars)
      (.cons (.mk _ (h.same fun _ => readFlag)) .nil))
  · simp [presetFields, commutes_field]

theorem reads_readTerminal : Reads (record (terminalLayout record scalar)) readTerminal := by
  apply h.records
  · intro n
    exact .cons (.mk _ h.labels) (.cons (.mk _ h.labels) (.cons (.mk _ (h.lists (reads_readPin h)))
      (.cons (.mk _ (h.same fun _ => readFlag))
      (.cons (.mk _ (h.optionals (reads_readPreset h))) .nil))))
  · simp [terminalFields, commutes_field]

theorem reads_readConstant : Reads (record (constantLayout scalar)) readConstant := by
  apply h.records
  · intro n
    exact .cons (.mk _ h.labels) (.cons (.mk _ h.scalars)
      (.cons (.mk _ (h.same fun _ => readFlag)) .nil))
  · simp [constantFields, commutes_field]

theorem reads_readCodeParameter :
    Reads (record (codeParameterLayout scalar)) readCodeParameter := by
  apply h.bind
  apply h.records
  · intro n
    exact .cons (.mk _ (h.same fun _ => readText)) (.cons (.mk _ h.labels) .nil)
  · simp [codeParameterFields, commutes_field]

theorem reads_readCodePort : Reads (record (codePortLayout record scalar)) readCodePort := by
  apply h.bind
  apply h.records
  · intro n
    exact .cons (.mk _ (h.same fun _ => readText)) (.cons (.mk _ h.labels)
      (.cons (.mk _ (h.optionals (reads_readPreset h))) .nil))
  · simp [codePortFields, commutes_field]

theorem reads_readCodePorts : Reads (record (codePortsLayout record scalar)) readCodePorts := by
  apply h.records
  · intro n
    exact .cons (.mk _ (h.lists (reads_readCodePort h)))
      (.cons (.mk _ (h.lists (reads_readCodePort h))) .nil)
  · simp [codePortsFields, commutes_field]

theorem reads_readCode : Reads (record (codeLayout record scalar)) readCode := by
  apply h.records
  · intro n
    exact .cons (.mk _ (h.same fun _ => readText))
      (.cons (.mk _ (h.lists (reads_readCodeParameter h)))
      (.cons (.mk _ (reads_readCodePorts h)) .nil))
  · simp [codeFields, commutes_field]

/-- Data of a type are read alike as what the type makes of them, if this holds of the records. -/
theorem alike_readKind (levels : Nat) (id : String) {type : String} {d d' : Json}
    (hdata : DataAs record scalar other type d d')
    (hpayload : ∀ {α : Type} {layout : Layout} {read : Nat → Json → Read α},
      Reads (record layout) read → record layout d d' →
      Alike Eq (payload levels id read d) (payload levels id read d')) :
    Alike Eq (readKind levels id type d) (readKind levels id type d') := by
  unfold readKind
  split
  case isFalse => exact .refl _
  case isTrue =>
    split
    case h_1 => exact (hpayload (reads_readTerminal h) hdata).map_eq _
    case h_2 => exact (hpayload (reads_readTerminal h) hdata).map_eq _
    case h_3 => exact (hpayload (reads_readConstant h) hdata).map_eq _
    case h_4 => exact (hpayload (reads_readCode h) hdata).map_eq _
    case h_5 => exact .refl _
    case h_6 => exact .refused _ _

theorem reads_readEndpoint : Reads (record endpointLayout) readEndpoint := by
  apply h.bind
  apply h.records
  · intro n
    exact .cons (.mk _ (h.same fun _ => readText)) (.cons (.mk _ (h.same fun _ => readText)) .nil)
  · simp [endpointFields, commutes_field]

theorem reads_readWire : Reads (record (wireLayout record)) readWire := by
  apply h.bind
  apply h.records
  · intro n
    exact .cons (.mk _ (reads_readEndpoint h)) (.cons (.mk _ (reads_readEndpoint h))
      (.cons (.mk _ (h.same fun _ => readOptional (readNat (Nat.pow 2 32)))) .nil))
  · simp [wireFields, commutes_field]

variable (hblock : Reads block readBlock)

include hblock

theorem reads_readGraph : Reads (record (graphLayout record block)) readGraph := by
  apply h.records
  · intro n
    exact .cons (.mk _ (h.lists hblock)) (.cons (.mk _ (h.lists (reads_readWire h))) .nil)
  · simp [graphFields, commutes_field]

theorem reads_readDesign : Reads (record (designLayout record block)) readDesign := by
  apply h.records
  · intro n
    exact .cons (.mk _ (h.same fun _ => readOptional readText))
      (.cons (.mk _ (reads_readGraph h hblock)) .nil)
  · simp [designFields, commutes_field]

/-- Whole projects, sub-circuits included. The induction is on the depth down to which these are
written differently. -/
theorem reads_readProject (depth : Nat) : Reads (ProjectAs record block depth) readProject := by
  induction depth with
  | zero => exact h.same readProject
  | succ depth ih =>
      rw [readProject_eq]
      apply h.records
      · intro n
        rw [readLibrary_eq]
        exact .cons (.mk _ (reads_readDesign h hblock)) (.cons (.mk _ (h.maps ih)) .nil)
      · simp [projectFields, commutes_field]

end Read

end Schematic.Format
