import GraphPattern.Proofs.Shorthand.Respelling
import GraphPattern.Proofs.Shorthand.Terms

/-!
# What the text of a term tells

A text that starts with a term tells the term, and where it ends (`Term.render_append_inj`): names and
numbers go on as long as they can, IRIs and strings have an end of their own, and no two forms of terms
start alike. So nothing has to be known of what follows but that it is no part of a name.
-/

namespace GraphPattern

open Shorthand Text

/-! ## Clean terms -/

/-- A literal with at most one of a language tag and a datatype, made of the characters that may stand
there. -/
structure Literal.IsClean (l : Literal) : Prop where
  single : l.language = none ∨ l.datatype = none
  language : ∀ tag, l.language = some tag →
    tag.toList ≠ [] ∧ ∀ c ∈ tag.toList, isTagChar c = true
  datatype : ∀ d, l.datatype = some d → d.IsPlain

/-- Whether the term is no variable with a value, and made of the characters that may stand in it. -/
def Term.IsClean : Term → Prop
  | .iri i => i.IsPlain
  | .literal l => l.IsClean
  | .free name => IsName name
  | .bound _ _ => False
  | .blank n => IsName n.label

theorem IsName.exists_cons {name : String} (h : IsName name) :
    ∃ c cs, name.toList = c :: cs ∧ isNameChar c = true := by
  obtain ⟨c, cs, hcs⟩ := List.exists_cons_of_ne_nil h.1
  exact ⟨c, cs, hcs, h.2 c (by rw [hcs]; exact List.mem_cons_self)⟩

/-! ## Where names end -/

/-- The characters that stand behind names and numbers in the text of a pattern. -/
def delimiters : List Char := [' ', '(', ')', ',', '/']

/-- Whether a name or a number ends before this text. -/
def Delimits (cs : List Char) : Prop := ∀ c ∈ cs.head?, c ∈ delimiters

theorem delimits_cons {c : Char} {cs : List Char} (h : c ∈ delimiters) : Delimits (c :: cs) := by
  rintro d ⟨⟩
  exact h

theorem Delimits.head {p : Char → Bool} {cs : List Char} (h : Delimits cs)
    (hp : delimiters.all (!p ·) = true) : ∀ c ∈ cs.head?, p c = false := by
  intro c hc
  simpa using List.all_eq_true.mp hp c (h c hc)

section Spans

variable {p : Char → Bool} {v w r s : List Char}

/-- Runs of a class of characters are the same if what follows them is of another class. -/
theorem span_append_inj (hv : ∀ c ∈ v, p c = true) (hw : ∀ c ∈ w, p c = true)
    (hr : ∀ c ∈ r.head?, p c = false) (hs : ∀ c ∈ s.head?, p c = false) (h : v ++ r = w ++ s) :
    v = w ∧ r = s := by
  have htake := congrArg (List.takeWhile p) h
  rw [takeWhile_append_of_head hv hr, takeWhile_append_of_head hw hs] at htake
  subst htake
  exact ⟨rfl, List.append_cancel_left h⟩

theorem name_append_inj {m n : String} (hm : IsName m) (hn : IsName n) (hr : Delimits r)
    (hs : Delimits s) (h : m.toList ++ r = n.toList ++ s) : m = n ∧ r = s := by
  obtain ⟨hlist, hrest⟩ :=
    span_append_inj hm.2 hn.2 (hr.head (by decide)) (hs.head (by decide)) h
  exact ⟨String.toList_inj.mp hlist, hrest⟩

/-- A list is told by the texts of its members, if each member is by its own, up to a text that is the
text of none. -/
theorem flatMap_append_inj {α : Type} {text : α → List Char} {R : α → Prop} {Q : List Char → Prop}
    {as bs : List α} (has : ∀ a ∈ as, R a) (hbs : ∀ b ∈ bs, R b)
    (hfollow : ∀ a x, R a → Q (text a ++ x))
    (htold : ∀ a ∈ as, ∀ b, R b → ∀ x y, Q x → Q y → text a ++ x = text b ++ y → a = b ∧ x = y)
    (hr : Q r ∧ ∀ a x, R a → r ≠ text a ++ x) (hs : Q s ∧ ∀ a x, R a → s ≠ text a ++ x)
    (h : as.flatMap text ++ r = bs.flatMap text ++ s) : as = bs ∧ r = s := by
  have hQ : ∀ {cs : List α} {x : List Char}, (∀ c ∈ cs, R c) → Q x → Q (cs.flatMap text ++ x) := by
    intro cs x hcs hx
    cases cs with
    | nil => exact hx
    | cons c cs =>
      rw [List.flatMap_cons, List.append_assoc]
      exact hfollow c _ (hcs c List.mem_cons_self)
  induction as generalizing bs with
  | nil =>
    cases bs with
    | nil => exact ⟨rfl, h⟩
    | cons b bs =>
      rw [List.flatMap_cons, List.append_assoc] at h
      exact absurd h (hr.2 b _ (hbs b List.mem_cons_self))
  | cons a as ih =>
    rw [List.forall_mem_cons] at has htold
    cases bs with
    | nil =>
      rw [List.flatMap_cons, List.append_assoc] at h
      exact absurd h.symm (hs.2 a _ has.1)
    | cons b bs =>
      rw [List.forall_mem_cons] at hbs
      rw [List.flatMap_cons, List.flatMap_cons, List.append_assoc, List.append_assoc] at h
      obtain ⟨rfl, hrest⟩ := htold.1 b hbs.1 _ _ (hQ has.2 hr.1) (hQ hbs.2 hs.1) h
      obtain ⟨rfl, hend⟩ := ih has.2 hbs.2 htold.2 hrest
      exact ⟨rfl, hend⟩

end Spans

variable {r s : List Char}

/-! ## IRIs -/

theorem Iri.render_append_inj {i j : Iri} (hi : i.IsPlain) (hj : j.IsPlain)
    (h : i.render.toList ++ r = j.render.toList ++ s) : i = j ∧ r = s := by
  simp only [toList_render, List.cons_append, List.append_assoc, List.nil_append,
    List.cons.injEq, true_and] at h
  have hend : ∀ rest : List Char, ∀ c ∈ ('>' :: rest).head?, isIriChar c = false := by
    rintro rest c ⟨⟩
    decide
  obtain ⟨htext, hrest⟩ := span_append_inj hi hj (hend r) (hend s) h
  obtain ⟨i⟩ := i
  obtain rfl := String.toList_inj.mp htext
  exact ⟨rfl, (List.cons.inj hrest).2⟩

/-! ## Literals -/

namespace Literal

/-- The characters of numbers and truth values. -/
def isBareChar (c : Char) : Bool := isNameChar c || ['+', '-', '.'].contains c

theorem isBareChar_of_isNameChar {c : Char} (h : isNameChar c = true) : isBareChar c = true := by
  rw [isBareChar, h, Bool.true_or]

variable {l k : Literal}

theorem isBareChar_of_isBare (h : l.isBare = true) :
    l.lexical.toList ≠ [] ∧ ∀ c ∈ l.lexical.toList, isBareChar c = true := by
  have hnumber : isInteger l.lexical.toList = true ∨ isDecimal l.lexical.toList = true ∨
      isDouble l.lexical.toList = true →
      l.lexical.toList ≠ [] ∧ ∀ c ∈ l.lexical.toList, isBareChar c = true := by
    apply forall_of_number
    · decide
    · exact fun c hc => isBareChar_of_isNameChar (isNameChar_of_isDigit hc)
    · intro c hc
      simp only [isExponentMark, Bool.or_eq_true, decide_eq_true_eq] at hc
      rcases hc with rfl | rfl <;> decide
  have hword : ∀ word : String, IsName word →
      word.toList ≠ [] ∧ ∀ c ∈ word.toList, isBareChar c = true :=
    fun word hw => ⟨hw.1, fun c hc => isBareChar_of_isNameChar (hw.2 c hc)⟩
  rcases isBare_iff.mp h with ⟨_, h⟩ | ⟨_, h⟩ | ⟨_, h⟩ | ⟨_, h | h⟩
  · exact hnumber (.inl h)
  · exact hnumber (.inr (.inl h))
  · exact hnumber (.inr (.inr h))
  · rw [h]
    exact hword "true" (by decide)
  · rw [h]
    exact hword "false" (by decide)

/-! A point and the letter of an exponent tell the three forms of numbers apart. -/

theorem isInteger_chars {cs : List Char} (h : isInteger cs = true) :
    ∀ c ∈ cs, c ≠ '.' ∧ isExponentMark c = false := by
  apply forall_of_dropSign
  · decide
  · decide
  · intro c hc
    have hdigit := (isDigits_iff.mp h).2 c hc
    constructor
    · rintro rfl
      cases hdigit
    · by_contra hmark
      rw [(not_isDigit_of_mark (by simpa using hmark)).1] at hdigit
      cases hdigit

theorem isDecimal_chars {cs : List Char} (h : isDecimal cs = true) :
    '.' ∈ cs ∧ ∀ c ∈ cs, isExponentMark c = false := by
  obtain ⟨whole, fraction, hcs, hwhole, hfraction⟩ := isDecimal_iff.mp h
  have hdigit : ∀ {c : Char}, c.isDigit = true → isExponentMark c = false := by
    intro c hc
    by_contra hmark
    rw [(not_isDigit_of_mark (by simpa using hmark)).1] at hc
    cases hc
  constructor
  · exact dropSign_subset cs '.' (by simp [hcs])
  · apply forall_of_dropSign
    · decide
    · decide
    · rw [hcs, List.forall_mem_append, List.forall_mem_cons]
      exact ⟨fun c hc => hdigit (hwhole c hc), by decide,
        fun c hc => hdigit ((isDigits_iff.mp hfraction).2 c hc)⟩

theorem isDouble_chars {cs : List Char} (h : isDouble cs = true) :
    ∃ c ∈ cs, isExponentMark c = true := by
  obtain ⟨mantissa, mark, exponent, rfl, _, hmark, _⟩ := isDouble_iff.mp h
  exact ⟨mark, by simp, hmark⟩

/-- Literals without quotes have the same datatype if they have the same lexical form. -/
theorem datatype_eq_of_isBare (hl : l.isBare = true) (hk : k.isBare = true)
    (h : l.lexical = k.lexical) : l.datatype = k.datatype := by
  have hword : ∀ word, (word = "true" ∨ word = "false") → isInteger word.toList = false ∧
      isDecimal word.toList = false ∧ isDouble word.toList = false := by
    rintro word (rfl | rfl)
    · decide
    · decide
  rw [isBare_iff, h] at hl
  rw [isBare_iff] at hk
  generalize k.lexical = lexical at hl hk
  -- a form of one datatype is no form of another
  have hinteger : isInteger lexical.toList = true → isDecimal lexical.toList = true → False :=
    fun hi hd => (isInteger_chars hi '.' (isDecimal_chars hd).1).1 rfl
  have hdouble : isDouble lexical.toList = true →
      isInteger lexical.toList = true ∨ isDecimal lexical.toList = true → False := by
    intro h hother
    obtain ⟨c, hc, hmark⟩ := isDouble_chars h
    have hnone : isExponentMark c = false := by
      rcases hother with h | h
      · exact (isInteger_chars h c hc).2
      · exact (isDecimal_chars h).2 c hc
    rw [hnone] at hmark
    cases hmark
  -- one of the four forms on both sides gives the datatype, two forms cannot be
  rcases hl with ⟨hl, hlf⟩ | ⟨hl, hlf⟩ | ⟨hl, hlf⟩ | ⟨hl, hlf⟩ <;>
    rcases hk with ⟨hk, hkf⟩ | ⟨hk, hkf⟩ | ⟨hk, hkf⟩ | ⟨hk, hkf⟩ <;>
    grind

theorem quotedForm_append_inj (h : l.quotedForm.toList ++ r = k.quotedForm.toList ++ s) :
    l.lexical = k.lexical ∧ r = s := by
  simp only [toList_quotedForm, List.cons_append, List.append_assoc, List.nil_append,
    List.cons.injEq, true_and] at h
  -- what stands between quotes is what a reader of strings makes of it
  obtain ⟨_, hl⟩ := scanBody_escape l.lexical.toList r
  obtain ⟨_, hk⟩ := scanBody_escape k.lexical.toList s
  rw [h, hk, Except.ok.injEq, StringBody.mk.injEq] at hl
  exact ⟨String.toList_inj.mp hl.1.symm, hl.2.2.symm⟩

/-- The three forms of what follows the quoted form. -/
theorem IsClean.suffix_cases (hl : l.IsClean) :
    (∃ tag, l.language = some tag ∧ l.datatype = none ∧ l.suffix.toList = '@' :: tag.toList) ∨
    (∃ d, l.language = none ∧ l.datatype = some d ∧
      l.suffix.toList = '^' :: '^' :: d.render.toList) ∨
    (l.language = none ∧ l.datatype = none ∧ l.suffix.toList = []) := by
  obtain ⟨lexical, datatype, language⟩ := l
  cases language with
  | some tag =>
    obtain rfl : datatype = none := hl.single.resolve_left nofun
    exact .inl ⟨tag, rfl, rfl, String.toList_append⟩
  | none =>
    cases datatype with
    | some d => exact .inr (.inl ⟨d, rfl, rfl, String.toList_append⟩)
    | none => exact .inr (.inr ⟨rfl, rfl, rfl⟩)

theorem suffix_append_inj (hl : l.IsClean) (hk : k.IsClean) (hr : Delimits r) (hs : Delimits s)
    (h : l.suffix.toList ++ r = k.suffix.toList ++ s) :
    l.language = k.language ∧ l.datatype = k.datatype ∧ r = s := by
  have hstart : ∀ {cs rest : List Char} {c : Char}, Delimits cs → c ∉ delimiters →
      cs ≠ c :: rest := by
    rintro cs rest c hcs hc rfl
    exact hc (hcs c rfl)
  rcases hl.suffix_cases with ⟨tag, hlang, hdata, htext⟩ | ⟨d, hlang, hdata, htext⟩ |
    ⟨hlang, hdata, htext⟩ <;>
  rcases hk.suffix_cases with ⟨tag', hlang', hdata', htext'⟩ | ⟨d', hlang', hdata', htext'⟩ |
    ⟨hlang', hdata', htext'⟩ <;>
  rw [htext, htext'] at h
  · obtain ⟨htag, hrest⟩ := span_append_inj (hl.language tag hlang).2 (hk.language tag' hlang').2
      (hr.head (by decide)) (hs.head (by decide)) (List.cons.inj h).2
    exact ⟨by rw [hlang, hlang', String.toList_inj.mp htag], hdata.trans hdata'.symm, hrest⟩
  · cases h
  · exact absurd h.symm (hstart hs (by decide))
  · cases h
  · obtain ⟨rfl, hrest⟩ := Iri.render_append_inj (hl.datatype d hdata) (hk.datatype d' hdata')
      (List.cons.inj (List.cons.inj h).2).2
    exact ⟨hlang.trans hlang'.symm, hdata.trans hdata'.symm, hrest⟩
  · exact absurd h.symm (hstart hs (by decide))
  · exact absurd h (hstart hr (by decide))
  · exact absurd h (hstart hr (by decide))
  · exact ⟨hlang.trans hlang'.symm, hdata.trans hdata'.symm, h⟩

/-- The characters that texts of literals start with. -/
def isLead (c : Char) : Bool := c.isDigit || ['"', '+', '-', '.', 't', 'f'].contains c

/-- The first character of a literal, which is a sign only where a number has one. -/
theorem exists_lead (l : Literal) : ∃ c cs, l.render.toList = c :: cs ∧ isLead c = true ∧
    (l.sign? = none → c ≠ '+' ∧ c ≠ '-') := by
  unfold render
  split
  · rename_i hbare
    obtain ⟨hne, -⟩ := isBareChar_of_isBare hbare
    obtain ⟨c, cs, hcs⟩ := List.exists_cons_of_ne_nil hne
    refine ⟨c, cs, hcs, ?_, ?_⟩
    · have hnumber : isInteger l.lexical.toList = true ∨ isDecimal l.lexical.toList = true ∨
          isDouble l.lexical.toList = true → isLead c = true := by
        intro h
        have hhead := head_of_number h c (by rw [hcs]; rfl)
        rw [isLead, Bool.or_eq_true, List.contains_iff_mem]
        exact hhead.imp_right fun hc => List.mem_append_left ['t', 'f'] (List.mem_cons_of_mem '"' hc)
      rcases isBare_iff.mp hbare with ⟨_, h⟩ | ⟨_, h⟩ | ⟨_, h⟩ | ⟨_, h | h⟩
      · exact hnumber (.inl h)
      · exact hnumber (.inr (.inl h))
      · exact hnumber (.inr (.inr h))
      · rw [h] at hcs
        cases hcs
        decide
      · rw [h] at hcs
        cases hcs
        decide
    · intro hsign
      rw [sign?, if_pos hbare, hcs] at hsign
      constructor
      · rintro rfl
        cases hsign
      · rintro rfl
        cases hsign
  · refine ⟨'"', l.lexical.toList.flatMap escape ++ ['"'] ++ l.suffix.toList, ?_, by decide,
      fun _ => by decide⟩
    rw [String.toList_append, toList_quotedForm, List.cons_append]

/-- A text that starts with a literal tells the literal and the rest. -/
theorem render_append_inj (hl : l.IsClean) (hk : k.IsClean) (hr : Delimits r) (hs : Delimits s)
    (h : l.render.toList ++ r = k.render.toList ++ s) : l = k ∧ r = s := by
  -- a literal with quotes and one without start with other characters
  have hquote : ∀ {l k : Literal} {r s : List Char}, l.isBare = true →
      l.lexical.toList ++ r ≠ k.quotedForm.toList ++ s := by
    intro l k r s hbare h
    obtain ⟨hne, hall⟩ := isBareChar_of_isBare hbare
    obtain ⟨c, cs, hcs⟩ := List.exists_cons_of_ne_nil hne
    rw [hcs, toList_quotedForm, List.cons_append, List.cons_append] at h
    have hc := hall c (by rw [hcs]; exact List.mem_cons_self)
    rw [(List.cons.inj h).1] at hc
    exact absurd hc (by decide)
  unfold render at h
  split at h
  · rename_i hbare
    obtain ⟨-, hall⟩ := isBareChar_of_isBare hbare
    split at h
    · rename_i hbare'
      obtain ⟨-, hall'⟩ := isBareChar_of_isBare hbare'
      -- numbers and words go on as long as they can
      obtain ⟨hlexical, hrest⟩ :=
        span_append_inj hall hall' (hr.head (by decide)) (hs.head (by decide)) h
      have hlexical := String.toList_inj.mp hlexical
      have hdatatype := datatype_eq_of_isBare hbare hbare' hlexical
      have hlanguage : ∀ {l : Literal}, l.IsClean → l.isBare = true → l.language = none := by
        intro l hl hbare
        refine hl.single.resolve_right fun hnone => ?_
        rw [isBare, hnone] at hbare
        cases hbare
      have hlanguage : l.language = k.language := by
        rw [hlanguage hl hbare, hlanguage hk hbare']
      cases l
      cases k
      cases hlexical
      cases hdatatype
      cases hlanguage
      exact ⟨rfl, hrest⟩
    · rw [String.toList_append, List.append_assoc] at h
      exact absurd h (hquote hbare)
  · split at h
    · rename_i hbare'
      rw [String.toList_append, List.append_assoc] at h
      exact absurd h.symm (hquote hbare')
    · rw [String.toList_append, String.toList_append, List.append_assoc, List.append_assoc] at h
      obtain ⟨hlexical, h⟩ := quotedForm_append_inj h
      obtain ⟨hlanguage, hdatatype, hrest⟩ := suffix_append_inj hl hk hr hs h
      cases l
      cases k
      cases hlexical
      cases hdatatype
      cases hlanguage
      exact ⟨rfl, hrest⟩

end Literal

/-! ## Terms -/

namespace Term

/-- Whether the text of a term of this form can start with the character. -/
def Leads : Term → Char → Prop
  | .iri _, c => c = '<'
  | .literal _, c => Literal.isLead c = true
  | .free _, c => c = '?'
  | .bound _ _, _ => False
  | .blank _, c => c = '_'

/-- The characters that texts of terms start with. -/
def isLead (c : Char) : Bool := Literal.isLead c || ['<', '?', '_'].contains c

variable {t u : Term}

theorem Leads.isLead {c : Char} (h : t.Leads c) : isLead c = true := by
  cases t with
  | literal l => rw [Term.isLead, show Literal.isLead c = true from h, Bool.true_or]
  | bound name value => cases h
  | _ =>
    cases h
    decide

/-- Whether what is written is a number with a sign, without quotes. -/
def IsSigned : Term → Prop
  | .literal l => l.sign?.isSome = true
  | .bound _ value => value.IsSigned
  | .iri _ | .free _ | .blank _ => False

theorem exists_lead (ht : t.IsClean) : ∃ c cs, t.render.toList = c :: cs ∧ t.Leads c ∧
    (¬t.IsSigned → c ≠ '+' ∧ c ≠ '-') := by
  cases t with
  | iri i => exact ⟨_, _, i.toList_render, rfl, fun _ => by decide⟩
  | literal l =>
    obtain ⟨c, cs, hcs, hc, hsign⟩ := l.exists_lead
    exact ⟨c, cs, hcs, hc, fun h => hsign (Option.not_isSome_iff_eq_none.mp h)⟩
  | free name => exact ⟨_, _, String.toList_append, rfl, fun _ => by decide⟩
  | bound name value => cases ht
  | blank n => exact ⟨_, _, String.toList_append, rfl, fun _ => by decide⟩

/-- Texts of terms of two forms start with other characters. -/
theorem Leads.ctorIdx_eq {c : Char} (ht : t.Leads c) (hu : u.Leads c) : t.ctorIdx = u.ctorIdx := by
  have hliteral : ∀ {l : Literal}, (literal l).Leads c → c ≠ '<' ∧ c ≠ '?' ∧ c ≠ '_' := by
    intro l h
    refine ⟨?_, ?_, ?_⟩ <;>
    · rintro rfl
      exact absurd (show Literal.isLead _ = true from h) (by decide)
  cases t with
  | literal l =>
    cases u with
    | literal k => rfl
    | bound name value => cases hu
    | iri i => exact absurd hu (hliteral ht).1
    | free name => exact absurd hu (hliteral ht).2.1
    | blank n => exact absurd hu (hliteral ht).2.2
  | bound name value => cases ht
  | _ =>
    cases ht
    cases u with
    | literal l => simpa using hliteral hu
    | _ => first | rfl | cases hu

/-- A text that starts with a term tells the term and the rest. -/
theorem render_append_inj (ht : t.IsClean) (hu : u.IsClean) (hr : Delimits r) (hs : Delimits s)
    (h : t.render.toList ++ r = u.render.toList ++ s) : t = u ∧ r = s := by
  have hform : t.ctorIdx = u.ctorIdx := by
    obtain ⟨c, cs, hcs, hc, -⟩ := exists_lead ht
    obtain ⟨d, ds, hds, hd, -⟩ := exists_lead hu
    rw [hcs, hds] at h
    obtain rfl := (List.cons.inj h).1
    exact hc.ctorIdx_eq hd
  cases t with
  | bound name value => cases ht
  | iri i =>
    cases u with
    | iri j =>
      obtain ⟨rfl, hrest⟩ := Iri.render_append_inj ht hu h
      exact ⟨rfl, hrest⟩
    | _ => cases hform
  | literal l =>
    cases u with
    | literal k =>
      obtain ⟨rfl, hrest⟩ := Literal.render_append_inj ht hu hr hs h
      exact ⟨rfl, hrest⟩
    | _ => cases hform
  | free name =>
    cases u with
    | free name' =>
      rw [render, render, String.toList_append, String.toList_append] at h
      obtain ⟨rfl, hrest⟩ := name_append_inj ht hu hr hs (List.cons.inj h).2
      exact ⟨rfl, hrest⟩
    | _ => cases hform
  | blank n =>
    cases u with
    | blank k =>
      rw [render, render, BlankNode.render, BlankNode.render, String.toList_append,
        String.toList_append] at h
      obtain ⟨n⟩ := n
      obtain ⟨rfl, hrest⟩ :=
        name_append_inj ht hu hr hs (List.cons.inj (List.cons.inj h).2).2
      exact ⟨rfl, hrest⟩
    | _ => cases hform

end Term

end GraphPattern
