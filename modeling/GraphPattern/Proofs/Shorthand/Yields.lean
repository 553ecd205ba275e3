import GraphPattern.Proofs.Shorthand.Grammar

/-!
# What readers yield

What is read off tokens is made of them: where a property of expressions holds of the terms that can be
read, and each form of expression has it if its parts do, it holds of all that is read
(`Source.readExpression_yields`), and in the same way for paths (`Source.readPath_yields`). The tokens
may have a property that the terms take theirs from.
-/

namespace GraphPattern.Shorthand

open Steps

/-- Whether all that a reader reads has a property. -/
def Yields {α : Type} (P : α → Prop) (r : Reader α) : Prop :=
  ∀ ⦃ts a rest⦄, r ts = .ok (a, rest) → P a

/-- Whether all tokens have a property. -/
def AllTokens (T : TokenKind → Prop) (ts : List Token) : Prop := ∀ t ∈ ts, T t.kind

/-- Whether all that a reader reads off tokens of a kind has a property. What it leaves are such tokens
again. -/
def YieldsFrom {α : Type} (T : TokenKind → Prop) (P : α → Prop) (r : Reader α) : Prop :=
  ∀ ⦃ts a rest⦄, AllTokens T ts → r ts = .ok (a, rest) → P a ∧ AllTokens T rest

variable {T : TokenKind → Prop}

theorem AllTokens.drop {ts : List Token} (h : AllTokens T ts) (n : Nat) :
    AllTokens T (ts.drop n) :=
  fun t ht => h t (List.mem_of_mem_drop ht)

/-! ## Texts -/

/-- What a text is parsed as is read off its tokens, all of them. -/
theorem parse_eq_ok {α : Type} {reader : Source → Reader α} {prefixes : Prefixes} {text : String}
    {a : α} (h : parse reader prefixes text = .ok a) :
    ∃ ts, tokenize text.toList = .ok ts ∧ reader ⟨prefixes, ts.finish⟩ ts.items = .ok (a, []) := by
  obtain ⟨ts, hts, h⟩ := except_bind_eq_ok.mp (mapError_eq_ok.mp h)
  obtain ⟨⟨a', rest⟩, ha, h⟩ := except_bind_eq_ok.mp h
  dsimp only at h
  split at h
  · cases h
    exact ⟨ts, hts, ha⟩
  · cases h

theorem parse_yields {α : Type} {P : α → Prop} {reader : Source → Reader α}
    (hr : ∀ s, Yields P (reader s)) {prefixes : Prefixes} {text : String} {a : α}
    (h : parse reader prefixes text = .ok a) : P a := by
  obtain ⟨_, _, ha⟩ := parse_eq_ok h
  exact hr _ ha

theorem resolveWith_yields {α : Type} {P : α → Prop} {parser : String → Except ParseError α}
    (hp : ∀ text a, parser text = .ok a → P a) {token : String} {a : α}
    (h : resolveWith parser token = .ok a) : P a := by
  obtain ⟨⟨text, lead⟩, _, h⟩ := except_bind_eq_ok.mp h
  exact hp text a (mapError_eq_ok.mp h)

/-! ## Paths -/

/-- Predicates that are read have the property, and paths that are put end to end have it if each of
them does. -/
structure AdmitsPath (P : Path → Prop) : Prop where
  iri : ∀ i, P (.predicate (.iri i))
  free : ∀ name, P (.predicate (.free name))
  sequence : ∀ {ps p}, (∀ q ∈ ps, P q) → Path.sequence? ps = some p → P p

namespace Source

variable {s : Source} {P : Path → Prop} {nested step : Reader Path}

theorem readBareStep_yields (hP : AdmitsPath P) (hn : Yields P nested) :
    Yields P (s.readBareStep nested) := by
  intro ts p rest h
  cases ts with
  | nil => cases h
  | cons token ts =>
    obtain ⟨kind, span⟩ := token
    cases kind with
    | leftParen =>
      obtain ⟨⟨q, _⟩, hq, h⟩ := except_bind_eq_ok.mp h
      obtain ⟨_, _, h⟩ := except_bind_eq_ok.mp h
      cases h
      exact hn hq
    | prefixedName label name =>
      obtain ⟨iri, _, h⟩ := except_bind_eq_ok.mp h
      cases h
      exact hP.iri iri
    | iriRef iri =>
      cases h
      exact hP.iri ⟨iri⟩
    | var name =>
      cases h
      exact hP.free name
    | word text =>
      simp only [readBareStep] at h
      split at h
      · cases h
        exact hP.iri _
      · cases h
    | _ => cases h

theorem readStep_yields (hP : AdmitsPath P) (hn : Yields P nested) :
    Yields P (s.readStep nested) := by
  intro ts p rest h
  obtain ⟨_, _, h⟩ := except_bind_eq_ok.mp h
  obtain ⟨⟨q, _⟩, hq, h⟩ := except_bind_eq_ok.mp h
  obtain ⟨_, _, h⟩ := except_bind_eq_ok.mp h
  cases h
  exact readBareStep_yields hP hn hq

theorem readMoreSteps_yields (hstep : Yields P step) (limit : Nat) :
    Yields (fun ps => ∀ p ∈ ps, P p) (readMoreSteps step limit) := by
  induction limit with
  | zero =>
    intro ts ps rest h
    cases h
    nofun
  | succ limit ih =>
    intro ts ps rest h
    rw [readMoreSteps] at h
    split at h
    · obtain ⟨⟨p, _⟩, hp, h⟩ := except_bind_eq_ok.mp h
      obtain ⟨⟨qs, _⟩, hqs, h⟩ := except_bind_eq_ok.mp h
      cases h
      exact List.forall_mem_cons.mpr ⟨hstep hp, ih hqs⟩
    · cases h
      nofun

theorem readSteps_yields (hP : AdmitsPath P) (hn : Yields P nested) :
    Yields P (s.readSteps nested) := by
  intro ts p rest h
  obtain ⟨⟨q, _⟩, hq, h⟩ := except_bind_eq_ok.mp h
  obtain ⟨⟨qs, _⟩, hqs, h⟩ := except_bind_eq_ok.mp h
  obtain ⟨_, _, h⟩ := except_bind_eq_ok.mp h
  have hstep := readStep_yields (s := s) hP hn
  split at h
  · rename_i hseq
    cases h
    exact hP.sequence (List.forall_mem_cons.mpr ⟨hstep hq, readMoreSteps_yields hstep _ hqs⟩) hseq
  · cases h

theorem readPathWithin_yields (hP : AdmitsPath P) (depth : Nat) :
    Yields P (s.readPathWithin depth) := by
  induction depth with
  | zero => nofun
  | succ depth ih => exact readSteps_yields hP ih

/-- All that is read as a path has a property that paths admit. -/
theorem readPath_yields (hP : AdmitsPath P) : Yields P s.readPath :=
  fun _ _ _ h => readPathWithin_yields hP _ h

end Source

theorem resolvePath_yields {P : Path → Prop} (hP : AdmitsPath P) {prefixes : Prefixes}
    {token : String} {p : Path} (h : resolvePath prefixes token = .ok p) : P p :=
  resolveWith_yields (fun _ _ ha => parse_yields (fun _ => Source.readPath_yields hP) ha) h

/-! ## Expressions -/

/-- Terms that are read have the property, and each form of expression has it if its parts do. -/
structure Admits (s : Source) (T : TokenKind → Prop) (P : Expression → Prop) : Prop where
  term : YieldsFrom T (fun t => P (.term t)) s.readTerm
  binary : ∀ {op l r}, P l → P r → P (.binary op l r)
  unary : ∀ {op e}, P e → P (.unary op e)
  builtin : ∀ {name es}, T (.word name) → (∀ e ∈ es, P e) → P (.call (.ofName name) es)
  iri : ∀ {i es}, P (.term (.iri i)) → (∀ e ∈ es, P e) → P (.call (.iri i) es)
  isIn : ∀ {e es negated}, P e → (∀ e' ∈ es, P e') → P (.isIn e es negated)

section Derivations

variable {s : Source} {P : Expression → Prop} {k : Nat} {ks : List TokenKind} {e : Expression}

/-- The tokens that stand for a term are read as the term, wherever they are. -/
theorem Stands.readTerm {t : Term} {ts : List Token} (h : Stands s.prefixes ks t)
    (hts : ts.map Token.kind = ks) : s.readTerm ts = .ok (t, []) := by
  cases h with
  | typed value hiri =>
    obtain ⟨⟨_, span⟩, _, rfl, rfl, hmore⟩ := List.map_eq_cons_iff.mp hts
    obtain ⟨⟨_, span'⟩, _, rfl, rfl, hlast⟩ := List.map_eq_cons_iff.mp hmore
    obtain ⟨span'', rfl⟩ := exists_of_map_eq_singleton hlast
    cases hiri with
    | iriRef text => rfl
    | prefixedName hiri =>
      show Source.asTerm (s.expand _ _ span'' >>= _) = _
      rw [Source.expand_eq_ok.mpr hiri]
      rfl
  | iri hiri =>
    obtain ⟨span, rfl⟩ := exists_of_map_eq_singleton hts
    cases hiri with
    | iriRef text => rfl
    | prefixedName hiri =>
      show (s.expand _ _ span >>= _) = _
      rw [Source.expand_eq_ok.mpr hiri]
      rfl
  | integer text | decimal text | double text =>
    obtain ⟨span, rfl⟩ := exists_of_map_eq_singleton hts
    show Except.ok (Term.literal (.typed ("" ++ text) _), _) = _
    rw [String.empty_append]
  | boolean value =>
    obtain ⟨span, rfl⟩ := exists_of_map_eq_singleton hts
    cases value <;> rfl
  | free name | blank label | simple value | tagged value tag =>
    obtain ⟨span, rfl⟩ := exists_of_map_eq_singleton hts
    rfl

variable (hP : Admits s T P)
include hP

theorem Admits.of_stands {t : Term} (h : Stands s.prefixes ks t) (hks : ∀ kind ∈ ks, T kind) :
    P (.term t) := by
  have hkinds : (ks.map fun kind => (⟨kind, .point 0⟩ : Token)).map Token.kind = ks := by
    simp [Function.comp_def]
  refine (hP.term (fun token htoken => ?_) (h.readTerm hkinds)).1
  obtain ⟨kind, hkind, rfl⟩ := List.mem_map.mp htoken
  exact hks kind hkind

/-- What the parts of a derivation have, the whole has. -/
theorem Admits.of_derives (h : Derives s.prefixes k ks e) (hks : ∀ kind ∈ ks, T kind) : P e := by
  induction h with
  | tighter _ _ _ ih => exact ih hks
  | chain _ _ _ ihl ihr | comparison _ _ _ ihl ihr =>
    obtain ⟨hl, hr⟩ := List.forall_mem_append.mp hks
    exact hP.binary (ihl hl) (ihr (List.forall_mem_cons.mp hr).2)
  | isIn _ _ _ ih ihparts =>
    obtain ⟨he, hargs⟩ := List.forall_mem_append.mp hks
    refine hP.isIn (ih he) (List.forall_mem_map.mpr fun part hpart => ihparts part hpart ?_)
    exact fun kind hkind => (List.forall_mem_append.mp hargs).2 kind
      (mem_argumentTokens hkind (List.mem_map_of_mem hpart))
  | unary op _ ih => exact hP.unary (ih (List.forall_mem_cons.mp hks).2)
  | parentheses _ ih =>
    exact ih (List.forall_mem_append.mp (List.forall_mem_cons.mp hks).2).1
  | @call kind c parts hc _ ihparts =>
    obtain ⟨hkind, hargs⟩ := List.forall_mem_cons.mp hks
    have hes : ∀ e ∈ parts.map Prod.snd, P e := List.forall_mem_map.mpr fun part hpart =>
      ihparts part hpart fun kind hkind =>
        hargs kind (mem_argumentTokens hkind (List.mem_map_of_mem hpart))
    cases hc with
    | word text => exact hP.builtin hkind hes
    | iri h => exact hP.iri (hP.of_stands (.iri h) (by simpa using hkind)) hes
  | term h => exact hP.of_stands h hks

/-- All that is read off tokens of a kind has a property that such expressions admit. -/
theorem Source.readExpression_yields : YieldsFrom T P s.readExpression := by
  intro ts e rest hts h
  obtain ⟨us, rfl, hus⟩ := readExpressionWithin_sound _ _ h
  obtain ⟨hus', hrest⟩ := List.forall_mem_append.mp hts
  exact ⟨hP.of_derives hus (List.forall_mem_map.mpr hus'), hrest⟩

end Derivations

end GraphPattern.Shorthand
