import Schematic.Proofs.Json.Tokens
import Schematic.Proofs.Json.Variant
import Mathlib.Data.List.Forall2

/-!
# Scalars written as strings

An integer of 64 bits may be written as the string of its digits, and a truth value as `"1"` or
`"0"`. When one scalar of a text is respelled so, the document keeps its shape: its tree differs in
scalars that are respelled, and it is well-formed if and only if it was before. Readers that take
scalars by their text do not tell the two apart.
-/

namespace Schematic.Json

/-- Members with one key and related values. -/
inductive Keyed (R : Json → Json → Prop) : Member → Member → Prop
  | mk (key : Option String) {v v' : Json} : R v v' → Keyed R (key, v) (key, v')

theorem Keyed.key {R : Json → Json → Prop} {m m' : Member} (h : Keyed R m m') : m.1 = m'.1 := by
  cases h with
  | mk => rfl

theorem Keyed.value {R : Json → Json → Prop} {m m' : Member} (h : Keyed R m m') :
    R m.2 m'.2 := by
  cases h with
  | mk _ hv => exact hv

/-- A scalar and its text. -/
inductive Scalar : Json → String → Prop
  | integer {k : Int} : -2 ^ 63 ≤ k → k < 2 ^ 64 → Scalar (.number (.ofInt k)) (toString k)
  | flag (b : Bool) : Scalar (.bool b) (if b then "1" else "0")

/-- The tree with some of its scalars written as strings. -/
inductive Respelled : Json → Json → Prop
  | same (j : Json) : Respelled j j
  | scalar {v : Json} {s : String} : Scalar v s → Respelled v (ofText s)
  | array {items items' : List Json} :
      List.Forall₂ Respelled items items' → Respelled (.array items) (.array items')
  | object {members members' : List Member} :
      List.Forall₂ (Keyed Respelled) members members' →
      Respelled (.object members) (.object members')

section Trees

theorem respelled_items_refl (items : List Json) : List.Forall₂ Respelled items items :=
  List.forall₂_same.mpr fun v _ => .same v

theorem respelled_members_refl (members : List Member) :
    List.Forall₂ (Keyed Respelled) members members :=
  List.forall₂_same.mpr fun m _ => .mk m.1 (.same m.2)

theorem respelled_array_iff {items items' : List Json} :
    Respelled (.array items) (.array items') ↔ List.Forall₂ Respelled items items' := by
  constructor
  · intro h
    cases h with
    | same => exact respelled_items_refl items
    | array h => exact h
  · exact .array

theorem respelled_object_iff {members members' : List Member} :
    Respelled (.object members) (.object members') ↔
      List.Forall₂ (Keyed Respelled) members members' := by
  constructor
  · intro h
    cases h with
    | same => exact respelled_members_refl members
    | object h => exact h
  · exact .object

end Trees

section Documents

/-- Open containers with respelled scalars in them. -/
inductive Open.Respelled : Open → Open → Prop
  | array {items items' : List Json} :
      List.Forall₂ Json.Respelled items items' → Open.Respelled (.array items) (.array items')
  | object {members members' : List Member} :
      List.Forall₂ (Keyed Json.Respelled) members members' →
      Open.Respelled (.object members) (.object members')
  | member {members members' : List Member} (key : Option String) :
      List.Forall₂ (Keyed Json.Respelled) members members' →
      Open.Respelled (.member members key) (.member members' key)

theorem Open.Respelled.refl (o : Open) : o.Respelled o := by
  cases o with
  | array items => exact .array (respelled_items_refl items)
  | object members => exact .object (respelled_members_refl members)
  | member members key => exact .member key (respelled_members_refl members)

namespace Reading

/-- Texts read up to one place, with respelled scalars in what was read. -/
inductive Respelled : Reading → Reading → Prop
  | inside (phase : Phase) {stack stack' : List Open} :
      List.Forall₂ Open.Respelled stack stack' →
      Respelled (.inside phase stack) (.inside phase stack')
  | complete {root root' : Json} :
      Json.Respelled root root' → Respelled (.complete root) (.complete root')
  | broken {root root' : Json} :
      Json.Respelled root root' → Respelled (.broken root) (.broken root')

theorem respelled_abandon {stack stack' : List Open}
    (h : List.Forall₂ Open.Respelled stack stack') {inner inner' : Json}
    (hinner : Json.Respelled inner inner') :
    Json.Respelled (abandon inner stack) (abandon inner' stack') := by
  induction h generalizing inner inner' with
  | nil => exact hinner
  | cons hopen _ ih =>
      cases hopen with
      | array hitems =>
          apply ih
          exact .array (List.rel_append (List.rel_reverse hitems)
            (.cons hinner (respelled_items_refl _)))
      | object hmembers =>
          apply ih
          exact .object (List.rel_append (List.rel_reverse hmembers) (respelled_members_refl _))
      | member key hmembers =>
          apply ih
          exact .object (List.rel_append (List.rel_reverse hmembers)
            (.cons (.mk key hinner) (respelled_members_refl _)))

theorem respelled_fail {stack stack' : List Open}
    (h : List.Forall₂ Open.Respelled stack stack') : (fail stack).Respelled (fail stack') :=
  .broken (respelled_abandon h (.same _))

theorem respelled_deliver {stack stack' : List Open}
    (h : List.Forall₂ Open.Respelled stack stack') {v v' : Json} (hv : Json.Respelled v v') :
    (deliver v stack).Respelled (deliver v' stack') := by
  cases h with
  | nil => exact .complete hv
  | cons hopen hrest =>
      cases hopen with
      | array hitems => exact .inside _ (.cons (.array (.cons hv hitems)) hrest)
      | object hmembers => exact respelled_fail (.cons (.object hmembers) hrest)
      | member key hmembers =>
          exact .inside _ (.cons (.object (.cons (.mk key hv) hmembers)) hrest)

theorem respelled_begin {stack stack' : List Open}
    (h : List.Forall₂ Open.Respelled stack stack') (t : Token) :
    (begin t stack).Respelled (begin t stack') := by
  unfold begin
  split
  case h_1 => exact respelled_deliver h (.same _)
  case h_2 => exact respelled_deliver h (.same _)
  case h_3 => exact respelled_deliver h (.same _)
  case h_4 => exact respelled_deliver h (.same _)
  case h_5 => exact .inside _ (.cons (.refl _) h)
  case h_6 => exact .inside _ (.cons (.refl _) h)
  case h_7 => exact respelled_fail h

theorem respelled_proceed {stack stack' : List Open}
    (h : List.Forall₂ Open.Respelled stack stack') (t : Token) :
    (proceed t stack).Respelled (proceed t stack') := by
  cases h with
  | nil => cases t <;> exact respelled_fail .nil
  | cons hopen hrest =>
      have hstack := List.Forall₂.cons hopen hrest
      cases hopen with
      | array hitems =>
          cases t with
          | comma => exact .inside _ hstack
          | closeArray => exact respelled_deliver hrest (.array (List.rel_reverse hitems))
          | _ => exact respelled_fail hstack
      | object hmembers =>
          cases t with
          | comma => exact .inside _ hstack
          | closeObject => exact respelled_deliver hrest (.object (List.rel_reverse hmembers))
          | _ => exact respelled_fail hstack
      | member key hmembers => cases t <;> exact respelled_fail hstack

/-- The next token is taken alike. -/
theorem respelled_step {r r' : Reading} (h : r.Respelled r') (t : Token) :
    (r.step t).Respelled (r'.step t) := by
  cases h with
  | broken hroot => exact .broken hroot
  | complete hroot => exact .broken hroot
  | inside phase hstack =>
      cases phase with
      | value => exact respelled_begin hstack t
      | firstItem =>
          unfold step
          dsimp only
          split
          case isTrue => exact respelled_proceed hstack t
          case isFalse => exact respelled_begin hstack t
      | firstKey =>
          cases t with
          | closeObject => exact respelled_proceed hstack _
          | string key => exact .inside _ hstack
          | _ => exact respelled_fail hstack
      | nextKey =>
          cases t with
          | string key => exact .inside _ hstack
          | _ => exact respelled_fail hstack
      | colon key =>
          cases t with
          | colon =>
              cases hstack with
              | nil => exact respelled_fail .nil
              | cons hopen hrest =>
                  cases hopen with
                  | object hmembers => exact .inside _ (.cons (.member key hmembers) hrest)
                  | array hitems => exact respelled_fail (.cons (.array hitems) hrest)
                  | member _ hmembers => exact respelled_fail (.cons (.member _ hmembers) hrest)
          | _ => exact respelled_fail hstack
      | separator => exact respelled_proceed hstack t

theorem respelled_foldl_step {r r' : Reading} (h : r.Respelled r') (ts : List Token) :
    (ts.foldl step r).Respelled (ts.foldl step r') := by
  induction ts generalizing r r' with
  | nil => exact h
  | cons t rest ih => exact ih (respelled_step h t)

theorem respelled_finish {r r' : Reading} (h : r.Respelled r') :
    Json.Respelled r.finish.root r'.finish.root ∧ r.finish.wellFormed = r'.finish.wellFormed := by
  cases h with
  | inside phase hstack => exact ⟨respelled_abandon hstack (.same _), rfl⟩
  | complete hroot => exact ⟨hroot, rfl⟩
  | broken hroot => exact ⟨hroot, rfl⟩

end Reading

end Documents

section Texts

/-- A scalar as written, and its text. -/
inductive Spelling : String → String → Prop
  | integer {k : Int} : -2 ^ 63 ≤ k → k < 2 ^ 64 → Spelling (toString k) (toString k)
  | yes : Spelling "true" "1"
  | no : Spelling "false" "0"

/-- The string of a text in which nothing has to be escaped. -/
def quoted (text : String) : String := "\"" ++ text ++ "\""

/-- A place in a text where a value stands. -/
structure IsSlot (before after : String) : Prop where
  endsToken : EndsToken before.toList
  /-- A value may begin after the tokens before. -/
  expectsValue : ∃ phase stack, (phase = .value ∨ phase = .firstItem) ∧
    (tokens before.toList).foldl Reading.step Reading.start = .inside phase stack
  /-- What comes after does not belong to a number or a word. -/
  apart : ∀ c ∈ after.toList.head?, Scanner.isAtom c = false

namespace Spelling

variable {plain text : String}

theorem isAtom (h : Spelling plain text) :
    plain.toList ≠ [] ∧ ∀ c ∈ plain.toList, Scanner.isAtom c = true := by
  cases h with
  | @integer k => exact ⟨toString_ne_empty k, isAtom_of_mem_toString k⟩
  | yes => exact ⟨by decide, List.all_eq_true.mp (by decide)⟩
  | no => exact ⟨by decide, List.all_eq_true.mp (by decide)⟩

theorem isLiteral (h : Spelling plain text) : ∀ c ∈ text.toList, Scanner.isLiteral c = true := by
  cases h with
  | @integer k => exact isLiteral_of_mem_toString k
  | yes => exact List.all_eq_true.mp (by decide)
  | no => exact List.all_eq_true.mp (by decide)

/-- Where a value may begin, both are values, one respelled as the other. -/
theorem respelled_step (h : Spelling plain text) {phase : Phase}
    (hphase : phase = .value ∨ phase = .firstItem) (stack : List Open) :
    (Reading.step (.inside phase stack) (Scanner.atomToken plain.toList)).Respelled
      (Reading.step (.inside phase stack) (.string (some text))) := by
  have hdeliver {v : Json} (hv : Scalar v text) :
      (Reading.deliver v stack).Respelled (Reading.deliver (ofText text) stack) :=
    Reading.respelled_deliver (List.forall₂_same.mpr fun o _ => .refl o) (.scalar hv)
  cases h with
  | integer hlow hhigh =>
      rw [atomToken_toString]
      rcases hphase with rfl | rfl <;> exact hdeliver (.integer hlow hhigh)
  | yes => rcases hphase with rfl | rfl <;> exact hdeliver (.flag true)
  | no => rcases hphase with rfl | rfl <;> exact hdeliver (.flag false)

end Spelling

/-- With a scalar respelled, a text has a respelled tree and is as well-formed as before. -/
theorem respelled_ofText {before after plain text : String} (hslot : IsSlot before after)
    (h : Spelling plain text) :
    Respelled (Document.ofText (before ++ plain ++ after)).root
        (Document.ofText (before ++ quoted text ++ after)).root ∧
      (Document.ofText (before ++ plain ++ after)).wellFormed =
        (Document.ofText (before ++ quoted text ++ after)).wellFormed := by
  obtain ⟨phase, stack, hphase, hbefore⟩ := hslot.expectsValue
  have hplain : tokens (before ++ plain ++ after).toList =
      tokens before.toList ++ Scanner.atomToken plain.toList :: tokens after.toList := by
    rw [String.toList_append, String.toList_append]
    exact tokens_atom hslot.endsToken hslot.apart h.isAtom.1 h.isAtom.2
  have hquoted : tokens (before ++ quoted text ++ after).toList =
      tokens before.toList ++ .string (some text) :: tokens after.toList := by
    have hchars : (quoted text).toList = '"' :: text.toList ++ ['"'] := by simp [quoted]
    rw [String.toList_append, String.toList_append, hchars]
    exact tokens_string hslot.endsToken h.isLiteral
  apply Reading.respelled_finish
  rw [hplain, hquoted, List.foldl_append, List.foldl_append, hbefore, List.foldl_cons,
    List.foldl_cons]
  exact Reading.respelled_foldl_step (h.respelled_step hphase stack) _

end Texts

end Schematic.Json
