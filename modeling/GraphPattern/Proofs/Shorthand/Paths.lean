import GraphPattern.Proofs.Shorthand.PathGrammar
import GraphPattern.Proofs.Shorthand.RoundTrip

/-!
# Paths read back

The text of a flat path is cut into the tokens of its terms with slashes between them, whatever slashes
and angle brackets the terms themselves have, and these are read back as the path
(`Shorthand.resolvePath_render`).
-/

namespace GraphPattern

open Shorthand

namespace Term

/-- Whether the term is an IRI or a free variable that shorthand can name. -/
def IsPlainStep : Term → Prop
  | .iri i => i.IsPlain
  | .free name => IsName name
  | .literal _ | .bound _ _ | .blank _ => False

instance : (t : Term) → Decidable t.IsPlainStep
  | .iri i => inferInstanceAs (Decidable i.IsPlain)
  | .free name => inferInstanceAs (Decidable (IsName name))
  | .literal _ | .bound _ _ | .blank _ => inferInstanceAs (Decidable False)

namespace IsPlainStep

variable {t : Term}

theorem isPlain (h : t.IsPlainStep) : t.IsPlain := by
  cases t with
  | iri i => exact h
  | free name => exact h
  | _ => cases h

theorem isUnsigned (h : t.IsPlainStep) : t.IsUnsigned := by
  cases t with
  | literal l => cases h
  | _ => trivial

/-- The token of the term stands for it. -/
theorem derivesPath (h : t.IsPlainStep) (prefixes : Prefixes) :
    DerivesPath prefixes .step t.tokens [t] := by
  cases t with
  | iri i => exact .predicate (.iri (.iriRef i.text))
  | free name => exact .predicate (.free name)
  | _ => cases h

end IsPlainStep

end Term

namespace Shorthand

variable {t : Term} {ts : List Term}

/-! ## Terms with slashes between them -/

theorem kinds_slash (afterOperand : Bool) (rest : List Char) :
    kinds afterOperand ('/' :: rest) = (kinds false rest).map (.slash :: ·) :=
  kinds_single rfl (by decide) nofun fun _ _ => rfl

/-- After a slash, an angle bracket opens an IRI: the slash is no operand. -/
theorem Spells.step {text more : List Char} {ks ls : List TokenKind} (h : Spells text ks)
    (hmore : Spells more ls) : Spells (text ++ '/' :: more) (ks ++ .slash :: ls) := by
  intro rest hrest
  rw [List.append_assoc, List.cons_append, h _ (breaks_cons (by decide)), kinds_slash,
    hmore rest hrest]
  simp [Option.map_map, Function.comp_def]

theorem spells_steps (h : ∀ u ∈ t :: ts, u.IsPlainStep) :
    Spells (t.render.toList ++ ts.flatMap fun u => '/' :: u.render.toList)
      (t.tokens ++ ts.flatMap fun u => .slash :: u.tokens) := by
  induction ts generalizing t with
  | nil =>
    have ht := h t List.mem_cons_self
    rw [List.flatMap_nil, List.append_nil, List.flatMap_nil, List.append_nil]
    exact Term.spells_render ht.isPlain ht.isUnsigned
  | cons u ts ih =>
    obtain ⟨ht, hmore⟩ := List.forall_mem_cons.mp h
    rw [List.flatMap_cons, List.flatMap_cons]
    exact (Term.spells_render ht.isPlain ht.isUnsigned).step (ih hmore)

theorem tight_steps (h : ∀ u ∈ t :: ts, u.IsPlainStep) :
    Tight (t.render.toList ++ ts.flatMap fun u => '/' :: u.render.toList) := by
  induction ts generalizing t with
  | nil =>
    rw [List.flatMap_nil, List.append_nil]
    exact Term.tight_render (h t List.mem_cons_self).isPlain
  | cons u ts ih =>
    obtain ⟨ht, hmore⟩ := List.forall_mem_cons.mp h
    rw [List.flatMap_cons]
    exact (Term.tight_render ht.isPlain).append ['/'] (ih hmore)

theorem derivesPath_steps (h : ∀ u ∈ t :: ts, u.IsPlainStep) (prefixes : Prefixes) :
    DerivesPath prefixes .path (t.tokens ++ ts.flatMap fun u => .slash :: u.tokens) (t :: ts) := by
  obtain ⟨ht, hmore⟩ := List.forall_mem_cons.mp h
  let parts := ts.map fun u => (u.tokens, [u])
  have hparts : ∀ part ∈ parts, DerivesPath prefixes .step part.1 part.2 :=
    List.forall_mem_map.mpr fun u hu => (hmore u hu).derivesPath prefixes
  simpa [parts, List.flatMap_map] using DerivesPath.steps (ht.derivesPath prefixes) hparts

/-! ## Paths -/

/-- The text of a path is read back as the path: a single predicate, or a sequence of two or more, each
an IRI or a free variable that shorthand can name. -/
theorem resolvePath_render {p : Path} (hflat : p.IsFlat) (hterms : ∀ t ∈ p.terms, t.IsPlainStep)
    (prefixes : Prefixes) : resolvePath prefixes p.render = .ok p := by
  obtain ⟨t, ts, hp, hrender⟩ := hflat.exists_terms
  rw [hp] at hterms
  have htight : Tight p.render.toList := hrender ▸ tight_steps hterms
  have hspells := spells_steps hterms
  rw [← hrender] at hspells
  obtain ⟨us, htokens, hkinds⟩ := tokenize_of_kinds hspells.kinds_eq_some
  have hderives : DerivesPath prefixes .path (us.items.map Token.kind) p.terms := by
    rw [hkinds, hp]
    exact derivesPath_steps hterms prefixes
  have hread : read Source.readPath prefixes p.render.toList = .ok p := by
    rw [read, htokens]
    exact Source.readAll_of_derivesPath hderives hflat.ofTerms?_terms
  exact htight.resolveWith_parse_eq_ok.mpr hread

theorem resolvePath_render_slashes : ∃ p : Path,
    (p.IsFlat ∧ ∀ t ∈ p.terms, t.IsPlainStep) ∧ p.render = "<=/>/?é_1/<>/<http://e/?x>" ∧
      resolvePath .empty p.render = .ok p := by
  let p : Path := .sequence [.predicate (.iri ⟨"=/"⟩), .predicate (.free "é_1"),
    .predicate (.iri ⟨""⟩), .predicate (.iri ⟨"http://e/?x"⟩)]
  have hflat : p.IsFlat := ⟨by decide, by simp [Path.IsPredicate]⟩
  have hterms : ∀ t ∈ p.terms, t.IsPlainStep := by decide +kernel
  exact ⟨p, ⟨hflat, hterms⟩, by decide +kernel, resolvePath_render hflat hterms .empty⟩

end Shorthand

end GraphPattern
