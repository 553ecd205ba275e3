import GraphPattern.Proofs.Shorthand.Lexing
import Mathlib.Data.List.TakeWhile

/-!
# Literals without quotes

A literal is written without quotes if its lexical form is a plain form of its datatype
(`Literal.isBare_iff`).
-/

namespace GraphPattern

open Shorthand Text

variable {cs : List Char}

/-! ## Plain forms -/

theorem exists_of_dropWhile_eq_cons {p : Char → Bool} {c : Char} {rest : List Char}
    (h : cs.dropWhile p = c :: rest) :
    cs = cs.takeWhile p ++ c :: rest ∧ p c = false ∧ ∀ d ∈ cs.takeWhile p, p d = true := by
  refine ⟨?_, ?_, fun d hd => List.mem_takeWhile_imp hd⟩
  · rw [← h, List.takeWhile_append_dropWhile]
  · have hhead := List.head?_dropWhile_not p cs
    rw [h] at hhead
    simpa using hhead

theorem isDecimal_iff :
    isDecimal cs = true ↔ ∃ whole fraction, dropSign cs = whole ++ '.' :: fraction ∧
      (∀ c ∈ whole, c.isDigit = true) ∧ isDigits fraction = true := by
  unfold isDecimal
  dsimp only
  constructor
  · intro h
    split at h
    · cases h
    · rename_i c fraction hd
      obtain ⟨hcs, hc, _⟩ := exists_of_dropWhile_eq_cons hd
      obtain rfl : c = '.' := by simpa using hc
      rw [Bool.and_eq_true, List.all_eq_true] at h
      exact ⟨_, fraction, hcs, h.1, h.2⟩
  · intro h
    obtain ⟨whole, fraction, hcs, hwhole, hfraction⟩ := h
    have hne : ∀ c ∈ whole, decide (c ≠ '.') = true := by
      intro c hc
      have hdigit := hwhole c hc
      rw [decide_eq_true_eq]
      rintro rfl
      exact absurd hdigit (by decide)
    have hend : ∀ c ∈ ('.' :: fraction).head?, decide (c ≠ '.') = false := by
      rintro c ⟨⟩
      decide
    rw [hcs, dropWhile_append_of_head hne hend, takeWhile_append_of_head hne hend]
    simp only [Bool.and_eq_true, List.all_eq_true]
    exact ⟨hwhole, hfraction⟩

theorem isPointedInteger_iff :
    isPointedInteger cs = true ↔ ∃ digits, dropSign cs = digits ++ ['.'] ∧
      isDigits digits = true := by
  unfold isPointedInteger
  constructor
  · intro h
    split at h
    · rename_i digits hr
      refine ⟨digits.reverse, ?_, h⟩
      rw [← List.reverse_reverse (dropSign cs), hr, List.reverse_cons]
    · cases h
  · intro h
    obtain ⟨digits, hcs, hdigits⟩ := h
    rw [hcs, List.reverse_append]
    simpa using hdigits

theorem isDouble_iff :
    isDouble cs = true ↔ ∃ mantissa mark exponent, cs = mantissa ++ mark :: exponent ∧
      (∀ c ∈ mantissa, isExponentMark c = false) ∧ isExponentMark mark = true ∧
      (isInteger mantissa = true ∨ isDecimal mantissa = true ∨
        isPointedInteger mantissa = true) ∧ isInteger exponent = true := by
  unfold isDouble
  constructor
  · intro h
    split at h
    · cases h
    · rename_i mark exponent hd
      obtain ⟨hcs, hmark, hall⟩ := exists_of_dropWhile_eq_cons hd
      rw [Bool.and_eq_true, Bool.or_eq_true, Bool.or_eq_true, or_assoc] at h
      exact ⟨_, mark, exponent, hcs, fun c hc => by simpa using hall c hc, by simpa using hmark,
        h.1, h.2⟩
  · intro h
    obtain ⟨mantissa, mark, exponent, rfl, hall, hmark, hmantissa, hexponent⟩ := h
    have hne : ∀ c ∈ mantissa, (!isExponentMark c) = true := fun c hc => by simp [hall c hc]
    have hend : ∀ c ∈ (mark :: exponent).head?, (!isExponentMark c) = false := by
      rintro c ⟨⟩
      simp [hmark]
    rw [dropWhile_append_of_head hne hend, takeWhile_append_of_head hne hend]
    simp only [Bool.and_eq_true, Bool.or_eq_true, or_assoc]
    exact ⟨hmantissa, hexponent⟩

/-- A literal is written without quotes if it is a plain form of one of four datatypes. -/
theorem Literal.isBare_iff {l : Literal} :
    l.isBare = true ↔
      (l.datatype = some ⟨Vocabulary.xsdInteger⟩ ∧ isInteger l.lexical.toList = true) ∨
      (l.datatype = some ⟨Vocabulary.xsdDecimal⟩ ∧ isDecimal l.lexical.toList = true) ∨
      (l.datatype = some ⟨Vocabulary.xsdDouble⟩ ∧ isDouble l.lexical.toList = true) ∨
      (l.datatype = some ⟨Vocabulary.xsdBoolean⟩ ∧
        (l.lexical = "true" ∨ l.lexical = "false")) := by
  obtain ⟨lexical, datatype, language⟩ := l
  cases datatype with
  | none => simp [isBare]
  | some d =>
    obtain ⟨text⟩ := d
    simp only [isBare, Option.some.injEq, Iri.mk.injEq]
    by_cases hi : text = Vocabulary.xsdInteger
    · subst hi
      simp [Vocabulary.xsdInteger, Vocabulary.xsdDecimal, Vocabulary.xsdDouble,
        Vocabulary.xsdBoolean]
    by_cases hd : text = Vocabulary.xsdDecimal
    · subst hd
      simp [Vocabulary.xsdInteger, Vocabulary.xsdDecimal, Vocabulary.xsdDouble,
        Vocabulary.xsdBoolean]
    by_cases hf : text = Vocabulary.xsdDouble
    · subst hf
      simp [Vocabulary.xsdInteger, Vocabulary.xsdDecimal, Vocabulary.xsdDouble,
        Vocabulary.xsdBoolean]
    by_cases hb : text = Vocabulary.xsdBoolean
    · subst hb
      simp [Vocabulary.xsdInteger, Vocabulary.xsdDecimal, Vocabulary.xsdDouble,
        Vocabulary.xsdBoolean]
    simp [hi, hd, hf, hb]

/-! ## Numbers without a sign -/

theorem dropSign_append {whole : List Char} (h : isDigits whole = true) (rest : List Char) :
    dropSign (whole ++ rest) = whole ++ rest := by
  obtain ⟨hne, hall⟩ := isDigits_iff.mp h
  cases whole with
  | nil => exact absurd rfl hne
  | cons c ds =>
    have hc := hall c List.mem_cons_self
    rw [List.cons_append]
    unfold dropSign
    split
    · rename_i heq
      cases heq
      exact absurd hc (by decide)
    · rename_i heq
      cases heq
      exact absurd hc (by decide)
    · rfl

section Number

variable {whole fraction exponent : List Char}

theorem Shorthand.IsFraction.eq_nil_or_mem (h : IsFraction fraction) :
    fraction = [] ∨ '.' ∈ fraction := by
  rcases h with rfl | ⟨digits, rfl, _⟩
  · exact .inl rfl
  · exact .inr List.mem_cons_self

theorem Shorthand.IsExponent.eq_nil_or_mem (h : IsExponent exponent) :
    exponent = [] ∨ ∃ mark ∈ exponent, isExponentMark mark = true := by
  rcases h with rfl | ⟨mark, sign, digits, rfl, hmark, _, _⟩
  · exact .inl rfl
  · exact .inr ⟨mark, List.mem_cons_self, hmark⟩

theorem Shorthand.IsFraction.not_mark (h : IsFraction fraction) :
    ∀ c ∈ fraction, isExponentMark c = false := by
  rcases h with rfl | ⟨digits, rfl, hdigits⟩
  · nofun
  · refine List.forall_mem_cons.mpr ⟨by decide, fun c hc => ?_⟩
    by_contra hmark
    have hdigit := (isDigits_iff.mp hdigits).2 c hc
    rw [(not_isDigit_of_mark (by simpa using hmark)).1] at hdigit
    cases hdigit

variable (hw : isDigits whole = true) (hf : IsFraction fraction) (he : IsExponent exponent)
include hw hf he

theorem numberKind_of_isInteger (h : isInteger (whole ++ fraction ++ exponent) = true) :
    numberKind fraction exponent = .integer := by
  rw [isInteger, List.append_assoc, dropSign_append hw] at h
  have hall := (isDigits_iff.mp h).2
  simp only [List.mem_append] at hall
  have hfraction : fraction = [] := by
    refine hf.eq_nil_or_mem.resolve_right fun hpoint => ?_
    exact absurd (hall '.' (.inr (.inl hpoint))) (by decide)
  have hexponent : exponent = [] := by
    refine he.eq_nil_or_mem.resolve_right fun hmarked => ?_
    obtain ⟨mark, hmem, hmark⟩ := hmarked
    have hdigit := hall mark (.inr (.inr hmem))
    rw [(not_isDigit_of_mark hmark).1] at hdigit
    cases hdigit
  rw [hfraction, hexponent]
  rfl

theorem numberKind_of_isDecimal (h : isDecimal (whole ++ fraction ++ exponent) = true) :
    numberKind fraction exponent = .decimal := by
  obtain ⟨front, back, hcs, hfront, hback⟩ := isDecimal_iff.mp h
  rw [List.append_assoc, dropSign_append hw] at hcs
  -- all characters are digits, but for the point
  have hall : ∀ c ∈ whole ++ (fraction ++ exponent), c.isDigit = true ∨ c = '.' := by
    rw [hcs]
    intro c hc
    simp only [List.mem_append, List.mem_cons] at hc
    rcases hc with hc | rfl | hc
    · exact .inl (hfront c hc)
    · exact .inr rfl
    · exact .inl ((isDigits_iff.mp hback).2 c hc)
  have hexponent : exponent = [] := by
    refine he.eq_nil_or_mem.resolve_right fun hmarked => ?_
    obtain ⟨mark, hmem, hmark⟩ := hmarked
    obtain ⟨hdigit, hpoint⟩ := not_isDigit_of_mark hmark
    rcases hall mark (by simp [hmem]) with h | h
    · rw [hdigit] at h
      cases h
    · exact hpoint h
  have hfraction : fraction ≠ [] := by
    rintro rfl
    have hpoint : '.' ∈ whole ++ ([] ++ exponent) := by
      rw [hcs]
      simp
    rw [hexponent, List.append_nil, List.append_nil] at hpoint
    exact absurd ((isDigits_iff.mp hw).2 '.' hpoint) (by decide)
  rw [hexponent]
  simp [numberKind, hfraction]

theorem numberKind_of_isDouble (h : isDouble (whole ++ fraction ++ exponent) = true) :
    numberKind fraction exponent = .double := by
  obtain ⟨mantissa, mark, back, hcs, _, hmark, _⟩ := isDouble_iff.mp h
  have hexponent : exponent ≠ [] := by
    rintro rfl
    have hmem : mark ∈ whole ++ fraction ++ [] := by simp [hcs]
    rw [List.append_nil, List.mem_append] at hmem
    rcases hmem with hmem | hmem
    · have hdigit := (isDigits_iff.mp hw).2 mark hmem
      rw [(not_isDigit_of_mark hmark).1] at hdigit
      cases hdigit
    · rw [hf.not_mark mark hmem] at hmark
      cases hmark
  simp [numberKind, hexponent]

end Number

theorem spells_number {cs whole fraction exponent : List Char}
    (hcs : cs = whole ++ fraction ++ exponent) (hw : isDigits whole = true)
    (hf : IsFraction fraction) (he : IsExponent exponent) :
    Spells cs [numberKind fraction exponent (String.ofList cs)] := by
  intro rest hrest
  subst hcs
  exact kinds_number hw hf he hrest

/-- A literal that is written without quotes and without a sign is one token. -/
theorem Literal.spells_bare {l : Literal} (hl : l.IsUnsigned) (hbare : l.isBare = true) :
    Spells l.lexical.toList [l.bareToken] := by
  have hnumber : ∀ form : List Char → Bool, form l.lexical.toList = true →
      form "true".toList = false → form "false".toList = false →
      ∃ whole fraction exponent, l.lexical.toList = whole ++ fraction ++ exponent ∧
        isDigits whole = true ∧ IsFraction fraction ∧ IsExponent exponent := by
    intro form hform htrue hfalse
    rcases hl hbare with h | h | h
    · rw [h, htrue] at hform
      cases hform
    · rw [h, hfalse] at hform
      cases hform
    · exact h
  rcases isBare_iff.mp hbare with ⟨hd, h⟩ | ⟨hd, h⟩ | ⟨hd, h⟩ | ⟨hd, h⟩
  · obtain ⟨whole, fraction, exponent, hcs, hw, hf, he⟩ :=
      hnumber isInteger h (by decide) (by decide)
    have hspells := spells_number hcs hw hf he
    rw [numberKind_of_isInteger hw hf he (hcs ▸ h), String.ofList_toList] at hspells
    rw [bareToken, if_pos hd]
    exact hspells
  · obtain ⟨whole, fraction, exponent, hcs, hw, hf, he⟩ :=
      hnumber isDecimal h (by decide) (by decide)
    have hspells := spells_number hcs hw hf he
    rw [numberKind_of_isDecimal hw hf he (hcs ▸ h), String.ofList_toList] at hspells
    rw [bareToken, hd, if_neg (by decide), if_pos rfl]
    exact hspells
  · obtain ⟨whole, fraction, exponent, hcs, hw, hf, he⟩ :=
      hnumber isDouble h (by decide) (by decide)
    have hspells := spells_number hcs hw hf he
    rw [numberKind_of_isDouble hw hf he (hcs ▸ h), String.ofList_toList] at hspells
    rw [bareToken, hd, if_neg (by decide), if_neg (by decide), if_pos rfl]
    exact hspells
  · rw [bareToken, hd, if_neg (by decide), if_neg (by decide), if_neg (by decide)]
    rcases h with h | h
    · rw [h]
      exact fun rest hrest => kinds_name (by decide) (by rintro c ⟨⟩; rfl) false hrest
    · rw [h]
      exact fun rest hrest => kinds_name (by decide) (by rintro c ⟨⟩; rfl) false hrest

end GraphPattern
