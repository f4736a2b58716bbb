import Schematic.Proofs.Design.Records

/-!
# The order of fields in a design

A design is read the same whatever the order of the fields in its records, and whatever undeclared
fields stand among them. The data of a block is a record of the block's type, which may be written
behind it; the names of a library keep their order.
-/

namespace Schematic

namespace Format

open Json

section Layouts

/-- The data of a block of a type as it may be written differently. Where the type asks for no data,
any other will do that is as readable. -/
def DataVariant : (type : String) → Json → Json → Prop :=
  DataAs Variant Eq fun j j' => Readable j ↔ Readable j'

/-- A block as it may be written differently. Its data is rearranged as its type has it, wherever
the type is written. -/
def BlockVariant (j j' : Json) : Prop :=
  j = j' ∨ ∃ type, (∀ other, (some "type", ofText other) ∈ j.written ["id", "type", "data"] →
    other = type) ∧ Rearranged (blockLayout (DataVariant type)) j j'

/-- A project as it may be written differently, together with its sub-circuits down to a depth. -/
def ProjectVariant : (depth : Nat) → Json → Json → Prop := ProjectAs Variant BlockVariant

end Layouts

section Records

theorem readByRecords_variant : ReadByRecords Variant Eq Respects where
  same := respects_eq
  scalars := respects_eq _
  labels := respects_eq _
  bind := Respects.bind
  lists := respects_readList
  maps := respects_readMap
  optionals := respects_readOptional
  records := by
    intro σ layout fields start hfields hcommutes
    refine respects_readRecord start (fun n => (hfields n).imp ?_) hcommutes
    rintro _ _ ⟨set, hread⟩
    exact agrees_field hread n _ set

theorem keptByRecords_variant : KeptByRecords Variant Eq KeepsReadable where
  same := keepsReadable_eq
  scalars := keepsReadable_eq
  lists := keepsReadable_listVariant
  records := keepsReadable_variant

theorem keepsReadable_data (type : String) : KeepsReadable (DataVariant type) :=
  keeps_data keptByRecords_variant (fun _ _ h => h) type

theorem dataVariant_refl (type : String) (j : Json) : DataVariant type j j :=
  dataAs_refl (fun _ _ => Or.inl rfl) (fun _ => Iff.rfl) type j

end Records

section Blocks

/-- Within the levels, a value and its variant are read as they are, if they are readable. -/
theorem alike_readValue {R : Json → Json → Prop} (hR : KeepsReadable R) {levels : Nat}
    {v v' : Json} (h : R v v') (hv : v.isTidy levels) (hv' : v'.isTidy levels) :
    Alike (fun x x' => x = v ∧ x' = v') (readValue levels v) (readValue levels v') := by
  have hread {v x : Json} (hv : v.isTidy levels) :
      readValue levels v = .ok x ↔ Readable v ∧ x = v := by
    rw [readValue, require_eq_ok_iff]
    constructor
    · intro hx
      have hreadable := readable_of_value? hx
      rw [value?_of_isTidy hv hreadable] at hx
      exact ⟨hreadable, (Option.some.inj hx).symm⟩
    · rintro ⟨hreadable, rfl⟩
      exact value?_of_isTidy hv hreadable
  apply Alike.of_ok
  · intro x hx
    obtain ⟨hreadable, rfl⟩ := (hread hv).mp hx
    exact ⟨v', (hread hv').mpr ⟨(hR x v' h).mp hreadable, rfl⟩, rfl, rfl⟩
  · intro x' hx'
    obtain ⟨hreadable, rfl⟩ := (hread hv').mp hx'
    exact ⟨v, (hread hv).mpr ⟨(hR v x' h).mpr hreadable, rfl⟩⟩

theorem alike_payload {α : Type} {layout : Layout} {read : Nat → Json → Read α}
    (hread : Respects (Variant layout) read) {levels : Nat} (id : String) {d d' : Json}
    (h : Variant layout d d') (hd : d.isTidy levels) (hd' : d'.isTidy levels) :
    Alike Eq (payload levels id read d) (payload levels id read d') := by
  rcases h with rfl | h
  · exact .refl _
  · have hrecords : dataRecord d = d ∧ dataRecord d' = d' := by
      cases h <;> exact ⟨rfl, rfl⟩
    rw [payload_eq, payload_eq, hrecords.1, hrecords.2]
    exact (hread levels d d' hd hd' (Or.inr h)).mapError _

/-- Blocks that differ in nothing but how their data is written. -/
structure SameBlock (levels : Nat) (type : String) (r r' : BlockFields) : Prop where
  id : r.id = r'.id
  data : DataVariant type r.data r'.data
  left : r.data.isTidy levels
  right : r'.data.isTidy levels
  type : r.type = r'.type

theorem agrees_blockFields (levels : Nat) (type : String) :
    List.Forall₂ (Agrees (SameBlock levels type) levels) (blockFields levels)
      (blockLayout (DataVariant type)) := by
  refine .cons ⟨rfl, ?_⟩ (.cons ⟨rfl, ?_⟩ (.cons ⟨rfl, ?_⟩ .nil))
  · rintro v _ _ _ rfl
    apply (Alike.refl (readText v)).map
    rintro x _ rfl r r' h
    exact { h with id := rfl }
  · rintro v _ _ _ rfl
    apply (Alike.refl (readText v)).map
    rintro x _ rfl r r' h
    exact { h with type := rfl }
  · intro v v' hv hv' hdata
    apply (alike_readValue (keepsReadable_data type) hdata hv hv').map
    rintro x x' ⟨rfl, rfl⟩ r r' h
    exact { h with data := hdata, left := hv, right := hv' }

theorem commutes_blockFields (levels : Nat) : (blockFields levels).Pairwise Commutes := by
  simp [blockFields, commutes_field]

/-- The type a block was read with is written in it. -/
theorem type_written {levels : Nat} {j : Json} {r : BlockFields} {type : String}
    (h : readRecord levels blockFields {} j = .ok r) (htype : r.type = some type) :
    (some "type", ofText type) ∈ j.written ["id", "type", "data"] := by
  obtain ⟨n, rfl, hfilled⟩ := filled_readRecord blockFields ["id", "type", "data"]
    (fun _ => rfl) (by decide) h
  refine hfilled.induct (P := fun r => ∀ type, r.type = some type →
    (some "type", ofText type) ∈ j.written ["id", "type", "data"]) (by simp) ?_ type htype
  simp only [blockFields, List.forall_mem_cons, read_field_eq_ok_iff]
  refine ⟨?_, ?_, ?_, by simp⟩
  · rintro v _ _ ⟨x, _, rfl⟩ r hr
    exact hr
  · rintro v hv _ ⟨x, hx, rfl⟩ r _ type htype
    obtain rfl : x = type := Option.some.inj htype
    rw [← eq_ofText_of_readText hx]
    exact hv
  · rintro v _ _ ⟨x, _, rfl⟩ r hr
    exact hr

theorem respects_readBlock : Respects BlockVariant readBlock := by
  rintro levels j j' hj hj' (rfl | ⟨type, honly, h⟩)
  · exact .refl _
  cases levels with
  | zero => cases h <;> cases hj
  | succ n =>
      have hrecords : Alike (SameBlock n type) (readRecord (n + 1) blockFields {} j)
          (readRecord (n + 1) blockFields {} j') := by
        have hstart : SameBlock n type {} {} :=
          ⟨rfl, dataVariant_refl type .null, isTidy_null n, isTidy_null n, rfl⟩
        refine alike_readRecord h ?_ hstart hj hj'
        rintro _ ⟨⟩
        exact ⟨agrees_blockFields n type, commutes_blockFields n⟩
      apply hrecords.and_eq_ok.bind
      rintro r r' ⟨hsame, hr⟩
      rw [← hsame.id, ← hsame.type]
      apply (Alike.refl (require r.id)).bind
      rintro id _ rfl
      apply (Alike.refl (require r.type)).and_eq_ok.bind
      rintro found _ ⟨rfl, hfound⟩
      -- the data was kept as it is; only now is it read as the type has it
      obtain rfl : found = type := honly found (type_written hr (require_eq_ok_iff.mp hfound))
      have hkinds := alike_readKind readByRecords_variant (n + 1) id hsame.data fun hread hdata =>
        alike_payload hread id hdata (isTidy_succ hsame.left) (isTidy_succ hsame.right)
      exact hkinds.bind_eq _

end Blocks

end Format

namespace Project

open Format Json

/-- Two texts of one design, within the levels and with no key twice, that differ in the order of
the fields in records and in undeclared fields are read as the same project, or both refused. -/
theorem ofText_fieldOrder (text text' : String) (depth : Nat)
    (hwell : (Document.ofText text).wellFormed) (hwell' : (Document.ofText text').wellFormed)
    (htidy : (Document.ofText text).root.isTidy maxLevels)
    (htidy' : (Document.ofText text').root.isTidy maxLevels)
    (h : ProjectVariant depth (Document.ofText text).root (Document.ofText text').root)
    (p : Project) : Project.ofText text = .ok p ↔ Project.ofText text' = .ok p := by
  have halike := reads_readProject readByRecords_variant respects_readBlock depth maxLevels _ _
    htidy htidy' h
  rw [Project.ofText, Project.ofText, readDocument_eq_ok_iff, readDocument_eq_ok_iff,
    halike.eq_ok_iff p]
  simp only [hwell, hwell']

/-- A design with a constant in a part of its library. -/
def orderedText : String :=
  "\x7b\"dependencies\":\x7b\"p\":[[null,[[\x7b\"id\":\"a\",\"type\":\"basic.constant\"," ++
  "\"data\":\x7b\"name\":\"N\",\"value\":\"3\"\x7d\x7d]]]]\x7d\x7d"

/-- The same design with the data of the block in front of its type, and more fields. -/
def reorderedText : String :=
  "\x7b\"v\":[],\"dependencies\":\x7b\"p\":[[null,[[\x7b\"data\":\x7b\"value\":\"3\"," ++
  "\"x\":\x7b\x7d,\"name\":\"N\"\x7d,\"type\":\"basic.constant\",\"id\":\"a\"\x7d]]]]\x7d\x7d"

section Reordered

def idField : Member := (some "id", .ofText "a")

def typeField : Member := (some "type", .ofText "basic.constant")

def nameField : Member := (some "name", .ofText "N")

def valueField : Member := (some "value", .ofText "3")

def extraField : Member := (some "x", .object [])

/-- The library of one part that holds one block. -/
def libraryOf (block : Json) : Member :=
  (some "dependencies", .object [(some "p", .array [.array [.null, .array [.array [block]]]])])

def orderedBlock : Json :=
  .object [idField, typeField, (some "data", .object [nameField, valueField])]

def reorderedBlock : Json :=
  .object [(some "data", .object [valueField, extraField, nameField]), typeField, idField]

set_option maxRecDepth 1000 in
theorem document_orderedText :
    Document.ofText orderedText = ⟨.object [libraryOf orderedBlock], true⟩ := by
  rfl

set_option maxRecDepth 1000 in
theorem document_reorderedText : Document.ofText reorderedText =
    ⟨.object [(some "v", .array []), libraryOf reorderedBlock], true⟩ := by
  rfl

theorem dataVariant_reordered : DataVariant "basic.constant" (.object [nameField, valueField])
    (.object [valueField, extraField, nameField]) := by
  have hextra : IsExtra (constantLayout Eq) extraField :=
    ⟨"x", rfl, by simp [constantLayout], rfl⟩
  have hperm : ([valueField, extraField] ++ [nameField]).Perm
      ([nameField, valueField] ++ [extraField]) := List.perm_append_comm
  refine Or.inr (.object (.cons ?_ (.cons ?_ .nil)) (by simpa using hextra) hperm)
  · exact memberVariant_of_mem (by decide) List.mem_cons_self rfl
  · exact memberVariant_of_mem (by decide) (List.mem_cons_of_mem _ List.mem_cons_self) rfl

theorem blockVariant_reordered : BlockVariant orderedBlock reorderedBlock := by
  have hperm : [(some "data", .object [valueField, extraField, nameField]), typeField,
      idField].Perm ([idField, typeField,
        (some "data", .object [valueField, extraField, nameField])] ++ []) :=
    (List.reverse_perm _).symm
  refine Or.inr ⟨"basic.constant", by simp [orderedBlock, written, idField, typeField, Json.ofText],
    .object (.cons ?_ (.cons ?_ (.cons ?_ .nil))) (by simp) hperm⟩
  · exact memberVariant_of_mem (by decide) List.mem_cons_self rfl
  · exact memberVariant_of_mem (by decide) (List.mem_cons_of_mem _ List.mem_cons_self) rfl
  · exact memberVariant_of_mem (by decide)
      (List.mem_cons_of_mem _ (List.mem_cons_of_mem _ List.mem_cons_self)) dataVariant_reordered

theorem projectVariant_reordered : ProjectVariant 2 (.object [libraryOf orderedBlock])
    (.object [(some "v", .array []), libraryOf reorderedBlock]) := by
  have hpart : ProjectVariant 1 (.array [.array [.null, .array [.array [orderedBlock]]]])
      (.array [.array [.null, .array [.array [reorderedBlock]]]]) := by
    have hgraph : Variant (graphLayout Variant BlockVariant) (.array [.array [orderedBlock]])
        (.array [.array [reorderedBlock]]) :=
      Or.inr (.array (.cons (.items (.cons blockVariant_reordered .nil)) .nil))
    have hdesign : Variant (designLayout Variant BlockVariant)
        (.array [.null, .array [.array [orderedBlock]]])
        (.array [.null, .array [.array [reorderedBlock]]]) :=
      Or.inr (.array (.cons rfl (.cons hgraph .nil)))
    exact Or.inr (.array (.cons hdesign .nil))
  have hextra : IsExtra (projectLayout Variant BlockVariant (ProjectAs Variant BlockVariant 1))
      (some "v", .array []) := ⟨"v", rfl, by simp [projectLayout], rfl⟩
  refine Or.inr (.object (.cons ?_ .nil) (by simpa using hextra) (.swap _ _ _))
  exact memberVariant_of_mem (by simp) (List.mem_cons_of_mem _ List.mem_cons_self)
    (.members (.cons ⟨rfl, hpart⟩ .nil))

theorem ofText_fieldOrder_nested : ∃ p, Project.ofText orderedText = .ok p ∧
    Project.ofText reorderedText = .ok p ∧ p.library.map (fun e => (e.1, e.2.graph.blocks)) =
      [("p", [⟨"a", .constant { name := some "N", value := "3" }⟩])] := by
  have hp : Project.ofText orderedText = .ok ⟨{}, [("p", ⟨{ graph :=
      { blocks := [⟨"a", .constant { name := some "N", value := "3" }⟩] } }, []⟩)]⟩ := by
    rw [Project.ofText, readDocument_eq_ok_iff, document_orderedText]
    exact ⟨rfl, rfl⟩
  refine ⟨_, hp, (ofText_fieldOrder orderedText reorderedText 2 ?_ ?_ ?_ ?_ ?_ _).mp hp, rfl⟩
  · rw [document_orderedText]
  · rw [document_reorderedText]
  · rw [document_orderedText]
    rfl
  · rw [document_reorderedText]
    rfl
  · rw [document_orderedText, document_reorderedText]
    exact projectVariant_reordered

end Reordered

end Project

end Schematic
