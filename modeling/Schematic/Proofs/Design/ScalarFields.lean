import Schematic.Proofs.Design.Records
import Schematic.Proofs.Json.InPlace

/-!
# Numbers and truth values in a design

Labels, ranges, pins and values are texts of a design that may be written as numbers or truth
values. Which fields they are depends on the record, and for the data of a block on its type. An
integer of 64 bits in such a field may be replaced by the string of its digits, and a truth value by
`"1"` or `"0"`: the design is read as the same, or refused as before.
-/

namespace Schematic

namespace Format

open Json

section Places

/-- The data of a block of a type, with other values in fields that are read as scalars. -/
def DataInPlace : (type : String) → Json → Json → Prop := DataAs InPlace Any Eq

/-- A block with other values in its data, which has the fields of a type written in the block. -/
def BlockInPlace (j j' : Json) : Prop :=
  j = j' ∨ ∃ type, (some "type", ofText type) ∈ j.written ["id", "type", "data"] ∧
    InPlace (blockLayout (DataInPlace type)) j j'

/-- A project with other values in fields that are read as scalars, in its own design and in those
of its sub-circuits down to a depth. -/
def ProjectInPlace : (depth : Nat) → Json → Json → Prop := ProjectAs InPlace BlockInPlace

end Places

section Records

theorem readByRecords_inPlace : ReadByRecords InPlace Any Follows where
  same := follows_eq
  scalars := follows_readScalar
  labels := follows_readLabel
  bind := Follows.bind
  lists := follows_readList
  maps := follows_readMap
  optionals := follows_readOptional
  records := by
    intro σ layout fields start hfields _
    refine follows_readRecord start fun n => ?_
    rw [Layout.restrict, List.forall₂_map_right_iff]
    refine (hfields n).imp ?_
    rintro _ _ ⟨set, hread⟩
    exact stores_field hread n _ set

theorem keptByRecords_inPlace : KeptByRecords InPlace Any KeepsValue where
  same := keepsValue_eq
  scalars := keepsValue_any
  lists := keepsValue_listVariant
  records := keepsValue_inPlace

theorem keepsValue_data (type : String) : KeepsValue (DataInPlace type) :=
  keeps_data keptByRecords_inPlace keepsValue_eq type

theorem dataInPlace_refl (type : String) (j : Json) : DataInPlace type j j :=
  dataAs_refl (fun _ => .same) (fun _ => rfl) type j

end Records

section Blocks

theorem alike_payload_inPlace {α : Type} {layout : Layout} {read : Nat → Json → Read α}
    (hread : Follows (InPlace layout) read) (levels : Nat) (id : String) {d d' : Json}
    (h : InPlace layout d d') (hspelled : Respelled d d') :
    Alike Eq (payload levels id read d) (payload levels id read d') := by
  have hrecords := (hread levels d d' h hspelled).mapError fun _ =>
    (.because (.malformedData id) : Refusal BlockFault)
  rw [payload_eq, payload_eq]
  cases h with
  | same => exact .refl _
  | object _ => exact hrecords
  | array _ => exact hrecords

/-- Blocks that differ in nothing but some values in their data. -/
structure SameButData (type : String) (r r' : BlockFields) : Prop where
  id : r.id = r'.id
  data : DataInPlace type r.data r'.data
  respelled : Respelled r.data r'.data
  type : r.type = r'.type

theorem sameButData_refl (type : String) (r : BlockFields) : SameButData type r r :=
  ⟨rfl, dataInPlace_refl type r.data, .same r.data, rfl⟩

theorem stores_blockFields (type : String) (levels : Nat) :
    List.Forall₂ (Stores (SameButData type)) (blockFields levels)
      ((blockLayout (DataInPlace type)).restrict Respelled) := by
  refine .cons ⟨rfl, ?_⟩ (.cons ⟨rfl, ?_⟩ (.cons ⟨rfl, ?_⟩ .nil))
  · rintro v _ ⟨rfl, _⟩
    apply (Alike.refl (readText v)).map
    rintro x _ rfl r r' h
    exact { h with id := rfl }
  · rintro v _ ⟨rfl, _⟩
    apply (Alike.refl (readText v)).map
    rintro x _ rfl r r' h
    exact { h with type := rfl }
  · rintro v v' ⟨hdata, hspelled⟩
    have hvalues := rel_and (keepsValue_data type levels v v' hdata hspelled)
      (respelled_value? levels hspelled)
    apply (alike_require hvalues).map
    rintro x x' ⟨hx, hxspelled⟩ r r' h
    exact { h with data := hx, respelled := hxspelled }

theorem follows_readBlock : Follows BlockInPlace readBlock := by
  rintro levels j j' (rfl | ⟨type, hwritten, h⟩) hspelled
  · exact .refl _
  have hrecords := alike_readRecord_of_inPlace h hspelled (stores_blockFields type)
    (sameButData_refl type) levels {}
  apply hrecords.and_eq_ok.bind
  rintro r r' ⟨hsame, hr⟩
  rw [← hsame.id, ← hsame.type]
  apply (Alike.refl (require r.id)).bind
  rintro id _ rfl
  -- a block that was read has one type, so its data is of the type that was taken
  rw [type_of_readRecord hr hwritten]
  have hkinds := alike_readKind readByRecords_inPlace levels id hsame.data fun hread hdata =>
    alike_payload_inPlace hread levels id hdata hsame.respelled
  exact hkinds.bind_eq _

end Blocks

end Format

namespace Project

open Format Json

/-- Replacing a scalar by its text, in a field that is read as a scalar, does not change what a
design is read as, and a design that is refused stays so. That the scalar stands in such a field is
to say that the two trees differ in nothing but the values of such fields. -/
theorem ofText_respelled {before after plain text : String} (hslot : IsSlot before after)
    (hspelling : Spelling plain text) (depth : Nat)
    (hfields : ProjectInPlace depth (Document.ofText (before ++ plain ++ after)).root
      (Document.ofText (before ++ quoted text ++ after)).root)
    (p : Project) : Project.ofText (before ++ plain ++ after) = .ok p ↔
      Project.ofText (before ++ quoted text ++ after) = .ok p := by
  obtain ⟨hspelled, hwell⟩ := respelled_ofText hslot hspelling
  have halike := reads_readProject readByRecords_inPlace follows_readBlock depth maxLevels _ _
    hfields hspelled
  rw [Project.ofText, Project.ofText, readDocument_eq_ok_iff, readDocument_eq_ok_iff,
    halike.eq_ok_iff p, hwell]

/-- A design with a constant in a part of its library, up to the value of the constant. -/
def beforeValue : String :=
  "\x7b\"dependencies\":\x7b\"p\":[[null,[[\x7b\"data\":\x7b\"value\":"

/-- What follows the value. -/
def afterValue : String :=
  ",\"name\":\"N\"\x7d,\"type\":\"basic.constant\",\"id\":\"a\"\x7d]]]]\x7d\x7d"

section LeastValue

/-- The block of the constant with a value. -/
def valueBlock (v : Json) : Json :=
  .object [(some "data", .object [(some "value", v), (some "name", .ofText "N")]),
    (some "type", .ofText "basic.constant"), (some "id", .ofText "a")]

/-- The tree of the design with a value of the constant. -/
def valueTree (v : Json) : Json :=
  .object [(some "dependencies",
    .object [(some "p", .array [.array [.null, .array [.array [valueBlock v]]]])])]

set_option maxRecDepth 2000 in
theorem document_number :
    Document.ofText (beforeValue ++ "-9223372036854775808" ++ afterValue) =
      ⟨valueTree (.number (.ofInt (-9223372036854775808))), true⟩ := by
  rfl

set_option maxRecDepth 2000 in
theorem document_digits :
    Document.ofText (beforeValue ++ quoted "-9223372036854775808" ++ afterValue) =
      ⟨valueTree (.ofText "-9223372036854775808"), true⟩ := by
  rfl

theorem spelling_least : Spelling "-9223372036854775808" "-9223372036854775808" := by
  have hdigits : toString (-9223372036854775808 : Int) = "-9223372036854775808" := by decide
  rw [← hdigits]
  exact .integer (by decide) (by decide)

set_option maxRecDepth 2000 in
theorem isSlot_value : IsSlot beforeValue afterValue where
  endsToken := rfl
  expectsValue := ⟨.value, _, Or.inl rfl, rfl⟩
  apart := by
    rintro c ⟨⟩
    rfl

theorem blockInPlace_value (v v' : Json) : BlockInPlace (valueBlock v) (valueBlock v') := by
  have hdata : DataInPlace "basic.constant"
      (.object [(some "value", v), (some "name", .ofText "N")])
      (.object [(some "value", v'), (some "name", .ofText "N")]) := by
    refine .object (.cons ?_ (.cons ?_ .nil))
    · exact memberVariant_of_mem (by decide) (List.mem_cons_of_mem _ List.mem_cons_self) trivial
    · exact memberVariant_of_mem (by decide) List.mem_cons_self trivial
  refine Or.inr ⟨"basic.constant", by simp [valueBlock, written],
    .object (.cons ?_ (.cons ?_ (.cons ?_ .nil)))⟩
  · exact memberVariant_of_mem (by decide)
      (List.mem_cons_of_mem _ (List.mem_cons_of_mem _ List.mem_cons_self)) hdata
  · exact memberVariant_of_mem (by decide) (List.mem_cons_of_mem _ List.mem_cons_self) rfl
  · exact memberVariant_of_mem (by decide) List.mem_cons_self rfl

theorem projectInPlace_value (v v' : Json) : ProjectInPlace 2 (valueTree v) (valueTree v') := by
  have hgraph : InPlace (graphLayout InPlace BlockInPlace) (.array [.array [valueBlock v]])
      (.array [.array [valueBlock v']]) :=
    .array (.cons (.items (.cons (blockInPlace_value v v') .nil)) .nil)
  have hpart : ProjectInPlace 1 (.array [.array [.null, .array [.array [valueBlock v]]]])
      (.array [.array [.null, .array [.array [valueBlock v']]]]) :=
    .array (.cons (.array (.cons rfl (.cons hgraph .nil))) .nil)
  refine .object (.cons ?_ .nil)
  exact memberVariant_of_mem (by simp) (List.mem_cons_of_mem _ List.mem_cons_self)
    (.members (.cons ⟨rfl, hpart⟩ .nil))

theorem ofText_respelled_least : ∃ p,
    Project.ofText (beforeValue ++ "-9223372036854775808" ++ afterValue) = .ok p ∧
    Project.ofText (beforeValue ++ quoted "-9223372036854775808" ++ afterValue) = .ok p ∧
    p.library.map (fun e => (e.1, e.2.graph.blocks)) =
      [("p", [⟨"a", .constant { name := some "N", value := "-9223372036854775808" }⟩])] := by
  have hp : Project.ofText (beforeValue ++ "-9223372036854775808" ++ afterValue) =
      .ok ⟨{}, [("p", ⟨{ graph := { blocks := [⟨"a", .constant
        { name := some "N", value := "-9223372036854775808" }⟩] } }, []⟩)]⟩ := by
    rw [Project.ofText, readDocument_eq_ok_iff, document_number]
    exact ⟨rfl, rfl⟩
  refine ⟨_, hp, (ofText_respelled isSlot_value spelling_least 2 ?_ _).mp hp, rfl⟩
  rw [document_number, document_digits]
  exact projectInPlace_value _ _

end LeastValue

end Project

end Schematic
