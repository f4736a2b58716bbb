import Schematic.Json.Document
import Mathlib.Algebra.Group.Int.Defs
import Mathlib.Data.List.Basic
import Mathlib.Data.List.TakeWhile

/-!
# Tokens of a text with a value in it

Scanning a text does not depend on the tokens finished before, so a text falls into tokens piece by
piece wherever a token ends. An integer of 64 bits is one token, and so is the string of its digits;
a text in which one stands for the other has the same tokens before and after.
-/

namespace Schematic.Json

namespace Scanner

section Frame

/-- A scanner with tokens finished before its own. -/
def following (s : Scanner) (done : List Token) : Scanner := ⟨s.mode, s.tokens ++ done⟩

theorem separate_following (s : Scanner) (done : List Token) (c : Char) :
    (s.following done).separate c = (s.separate c).following done := by
  unfold separate
  split
  case isTrue => rfl
  case isFalse =>
    split
    case isTrue => rfl
    case isFalse => cases punctuation? c <;> rfl

/-- The next character does not concern tokens that are finished. -/
theorem step_following (s : Scanner) (done : List Token) (c : Char) :
    (s.following done).step c = (s.step c).following done := by
  rcases s with ⟨mode, tokens⟩
  cases mode with
  | stuck => rfl
  | blank =>
      by_cases h : isAtom c
      · simp [step, following, h]
      · simpa [step, following, h] using separate_following ⟨.blank, tokens⟩ done c
  | atom chars =>
      by_cases h : isAtom c
      · simp [step, following, h]
      · have hseparate := separate_following (flush ⟨.atom chars, tokens⟩) done c
        simpa [step, following, flush, h] using hseparate
  | string l =>
      simp only [step, following]
      split
      · rfl
      split
      · rfl
      split <;> rfl
  | escape l =>
      simp only [step, following]
      split
      · rfl
      · cases escaped? c <;> rfl
  | unit l count value =>
      simp only [step, following]
      cases hexDigit? c with
      | none => rfl
      | some d => dsimp only; split <;> rfl

theorem foldl_step_following (cs : List Char) (s : Scanner) (done : List Token) :
    cs.foldl step (s.following done) = (cs.foldl step s).following done := by
  induction cs generalizing s with
  | nil => rfl
  | cons c rest ih => rw [List.foldl_cons, List.foldl_cons, step_following, ih]

theorem finish_following (s : Scanner) (done : List Token) :
    (s.following done).finish = done.reverse ++ s.finish := by
  rcases s with ⟨mode, tokens⟩
  cases mode <;> simp [finish, following, flush, fail]

/-- Between tokens, the rest of a text falls into its own tokens. -/
theorem finish_foldl_blank (cs : List Char) (done : List Token) :
    (cs.foldl step ⟨.blank, done⟩).finish = done.reverse ++ Json.tokens cs := by
  have hfollowing : (⟨.blank, done⟩ : Scanner) = following {} done := rfl
  rw [hfollowing, foldl_step_following, finish_following, Json.tokens]

end Frame

section Values

/-- Letters and digits after a blank make up one atom. -/
theorem foldl_step_atom {cs : List Char} (h : ∀ c ∈ cs, isAtom c = true) (front : List Char)
    (done : List Token) :
    cs.foldl step ⟨.atom front, done⟩ = ⟨.atom (cs.reverse ++ front), done⟩ := by
  induction cs generalizing front with
  | nil => rfl
  | cons c rest ih =>
      rw [List.forall_mem_cons] at h
      have hstep : step ⟨.atom front, done⟩ c = ⟨.atom (c :: front), done⟩ := by
        simp [step, h.1]
      rw [List.foldl_cons, hstep, ih h.2]
      simp

/-- An atom ends where a character follows that belongs to none, or where the text ends. -/
theorem finish_foldl_atom {cs : List Char} (h : ∀ c ∈ cs.head?, isAtom c = false)
    (atom : List Char) (done : List Token) :
    (cs.foldl step ⟨.atom atom, done⟩).finish =
      (cs.foldl step ⟨.blank, atomToken atom.reverse :: done⟩).finish := by
  cases cs with
  | nil => rfl
  | cons c rest =>
      have hc : isAtom c = false := h c rfl
      simp [step, hc, flush]

/-- The characters of a string as they stand for themselves. -/
def isLiteral (c : Char) : Bool := c ≠ '"' && c ≠ '\\' && 0x20 ≤ c.toNat

theorem foldl_step_string {cs : List Char} (h : ∀ c ∈ cs, isLiteral c = true)
    (front : List Char) (done : List Token) :
    cs.foldl step ⟨.string { chars := front }, done⟩ =
      ⟨.string { chars := cs.reverse ++ front }, done⟩ := by
  induction cs generalizing front with
  | nil => rfl
  | cons c rest ih =>
      rw [List.forall_mem_cons] at h
      have hstep : step ⟨.string { chars := front }, done⟩ c =
          ⟨.string { chars := c :: front }, done⟩ := by
        have hc := h.1
        simp only [isLiteral, Bool.and_eq_true, decide_eq_true_eq] at hc
        simp [step, hc.1.1, hc.1.2, Nat.not_lt.mpr hc.2, Literal.push]
      rw [List.foldl_cons, hstep, ih h.2]
      simp

end Values

end Scanner

/-- The text so far ends between tokens. -/
def EndsToken (before : List Char) : Prop := (before.foldl Scanner.step {}).mode = .blank

section Texts

open Scanner

variable {before after : List Char}

theorem foldl_step_of_endsToken (h : EndsToken before) :
    before.foldl step {} = ⟨.blank, (tokens before).reverse⟩ := by
  unfold EndsToken at h
  rw [tokens]
  generalize before.foldl step {} = s at h ⊢
  rcases s with ⟨mode, done⟩
  obtain rfl : mode = .blank := h
  simp [finish]

/-- A text falls into the tokens before an atom, the atom, and the tokens after it. -/
theorem tokens_atom (hbefore : EndsToken before) (hafter : ∀ c ∈ after.head?, isAtom c = false)
    {atom : List Char} (hne : atom ≠ []) (hatom : ∀ c ∈ atom, isAtom c = true) :
    tokens (before ++ atom ++ after) = tokens before ++ atomToken atom :: tokens after := by
  cases atom with
  | nil => exact absurd rfl hne
  | cons c rest =>
      rw [List.forall_mem_cons] at hatom
      have hfirst (done : List Token) : step ⟨.blank, done⟩ c = ⟨.atom [c], done⟩ := by
        simp [step, hatom.1]
      rw [tokens, List.foldl_append, List.foldl_append, foldl_step_of_endsToken hbefore,
        List.foldl_cons, hfirst, foldl_step_atom hatom.2, finish_foldl_atom hafter,
        finish_foldl_blank]
      simp

/-- A text falls into the tokens before a string, the string, and the tokens after it. -/
theorem tokens_string (hbefore : EndsToken before) {s : String}
    (hs : ∀ c ∈ s.toList, isLiteral c = true) :
    tokens (before ++ ('"' :: s.toList ++ ['"']) ++ after) =
      tokens before ++ .string (some s) :: tokens after := by
  have hopen (done : List Token) : step ⟨.blank, done⟩ '"' = ⟨.string {}, done⟩ := rfl
  have hclose (chars : List Char) (done : List Token) :
      step ⟨.string { chars := chars }, done⟩ '"' =
        ⟨.blank, .string (some (String.ofList chars.reverse)) :: done⟩ := rfl
  have hempty : ({} : Literal) = { chars := [] } := rfl
  rw [tokens, List.foldl_append, List.foldl_append, foldl_step_of_endsToken hbefore,
    List.cons_append, List.foldl_cons, hopen, List.foldl_append, hempty, foldl_step_string hs,
    List.foldl_cons, List.foldl_nil, hclose, finish_foldl_blank]
  simp

end Texts

namespace Numeral

/-- The numeral of an integer. -/
def ofInt (k : Int) : Numeral := ⟨decide (k < 0), Nat.toDigits 10 k.natAbs, [], none⟩

theorem head?_toDigits_ne_zero {n : Nat} (h : 0 < n) : (Nat.toDigits 10 n).head? ≠ some '0' := by
  induction n using Nat.base_induction 10 (by decide) with
  | single m hm =>
      have hall : ∀ m < 10, 0 < m → m.digitChar ≠ '0' := by decide
      rw [Nat.toDigits_of_lt_base hm]
      simpa using hall m hm h
  | digit m k hk hm ih =>
      rw [← Nat.toDigits_append_toDigits (by decide) hm hk,
        List.head?_append_of_ne_nil _ Nat.toDigits_ne_nil]
      exact ih hm

theorem isCanonicalWhole_toDigits (n : Nat) : isCanonicalWhole (Nat.toDigits 10 n) = true := by
  rcases Nat.eq_zero_or_pos n with rfl | h
  · rfl
  · have hhead := head?_toDigits_ne_zero h
    unfold isCanonicalWhole
    split
    case h_1 heq => simp [heq] at hhead
    case h_2 => rfl

theorem takeDigits_toDigits (n : Nat) :
    takeDigits (Nat.toDigits 10 n) = some (Nat.toDigits 10 n, []) := by
  have hall : ∀ c ∈ Nat.toDigits 10 n, c.isDigit = true := fun c hc =>
    Nat.isDigit_of_mem_toDigits (by decide) (by decide) hc
  have htake : (Nat.toDigits 10 n).takeWhile Char.isDigit = Nat.toDigits 10 n :=
    List.takeWhile_eq_self_iff.mpr hall
  have hdrop : (Nat.toDigits 10 n).dropWhile Char.isDigit = [] :=
    List.dropWhile_eq_nil_iff.mpr hall
  simp [takeDigits, htake, hdrop, Nat.toDigits_ne_nil]

/-- The digits of an integer, with its sign. -/
theorem toList_toString (k : Int) : (toString k).toList =
    if k < 0 then '-' :: Nat.toDigits 10 k.natAbs else Nat.toDigits 10 k.natAbs := by
  rw [Int.toString_eq_repr, Int.repr_eq_if]
  by_cases h : k < 0
  · have hneg : (-k).toNat = k.natAbs := by omega
    rw [if_neg (by omega), if_pos h, String.toList_append, Nat.toList_repr, hneg]
    rfl
  · have hpos : k.toNat = k.natAbs := by omega
    rw [if_pos (by omega), if_neg h, Nat.toList_repr, hpos]

theorem ofChars?_toString (k : Int) : ofChars? (toString k).toList = some (ofInt k) := by
  rw [toList_toString, ofInt]
  by_cases h : k < 0
  · simp [ofChars?, h, takeDigits_toDigits, isCanonicalWhole_toDigits, finish]
  · have hsign (r : List Char) (hr : Nat.toDigits 10 k.natAbs = '-' :: r) : False := by
      have hdigit : '-'.isDigit = true :=
        Nat.isDigit_of_mem_toDigits (b := 10) (n := k.natAbs) (by decide) (by decide) (by simp [hr])
      exact absurd hdigit (by decide)
    rw [if_neg h, ofChars?.eq_2 _ hsign]
    simp [h, takeDigits_toDigits, isCanonicalWhole_toDigits, finish]

theorem digitsValue_toDigits (n : Nat) : digitsValue (Nat.toDigits 10 n) = n :=
  Nat.ofDigitChars_ten_toDigits

theorem isWord_ofInt {k : Int} (hlow : -2 ^ 63 ≤ k) (hhigh : k < 2 ^ 64) :
    (ofInt k).isWord = true := by
  have hvalue : digitsValue (ofInt k).whole = k.natAbs := digitsValue_toDigits _
  have hlow' : Nat.pow 2 63 = 9223372036854775808 := rfl
  have hhigh' : Nat.pow 2 64 = 18446744073709551616 := rfl
  rw [isWord, hvalue, hlow', hhigh']
  by_cases h : k < 0
  · have hsize : 0 < k.natAbs ∧ k.natAbs ≤ 9223372036854775808 := by omega
    simp [ofInt, isInteger, h, hsize]
  · have hsize : k.natAbs < 18446744073709551616 := by omega
    simp [ofInt, isInteger, h, hsize]

theorem text?_ofInt {k : Int} (hlow : -2 ^ 63 ≤ k) (hhigh : k < 2 ^ 64) :
    (ofInt k).text? = some (toString k) := by
  rw [text?, if_pos (isWord_ofInt hlow hhigh), Option.some.injEq, ← String.toList_inj,
    String.toList_ofList, toList_toString]
  simp [ofInt]

theorem mem_toString {k : Int} {c : Char} (h : c ∈ (toString k).toList) :
    c = '-' ∨ c.isDigit = true := by
  have hdigits : c ∈ Nat.toDigits 10 k.natAbs → c.isDigit = true :=
    Nat.isDigit_of_mem_toDigits (by decide) (by decide)
  rw [toList_toString] at h
  split at h
  case isTrue => exact (List.mem_cons.mp h).imp id hdigits
  case isFalse => exact Or.inr (hdigits h)

end Numeral

section Integers

open Scanner

theorem isAtom_of_mem_toString (k : Int) : ∀ c ∈ (toString k).toList, isAtom c = true := by
  intro c hc
  rcases Numeral.mem_toString hc with rfl | hdigit
  · rfl
  · simp [isAtom, Char.isAlphanum, hdigit]

theorem isLiteral_of_mem_toString (k : Int) : ∀ c ∈ (toString k).toList, isLiteral c = true := by
  intro c hc
  rcases Numeral.mem_toString hc with rfl | hdigit
  · rfl
  · have hquote : c ≠ '"' := by
      rintro rfl
      exact absurd hdigit (by decide)
    have hescape : c ≠ '\\' := by
      rintro rfl
      exact absurd hdigit (by decide)
    have hlow : 0x20 ≤ c.toNat :=
      le_trans (by decide) (Char.isDigit_iff_toNat.mp hdigit).1
    simp [isLiteral, hquote, hescape, hlow]

theorem toString_ne_empty (k : Int) : (toString k).toList ≠ [] := by
  rw [Numeral.toList_toString]
  split
  case isTrue => exact List.cons_ne_nil _ _
  case isFalse => exact Nat.toDigits_ne_nil

/-- An integer is one token. -/
theorem atomToken_toString (k : Int) :
    atomToken (toString k).toList = .number (Numeral.ofInt k) := by
  have hne {word : List Char} (hword : Numeral.ofChars? word = none) :
      (toString k).toList ≠ word := by
    rintro rfl
    rw [Numeral.ofChars?_toString] at hword
    cases hword
  rw [atomToken, if_neg (hne (by decide)), if_neg (hne (by decide)), if_neg (hne (by decide)),
    Numeral.ofChars?_toString]

end Integers

end Schematic.Json
