import GraphPattern.Proofs.Path
import GraphPattern.Proofs.Shorthand.Recognition

/-!
# The grammar of paths

What the tokens of a path may be, told without a reader:

    Path := Step ('/' Step)*
    Step := Iri | 'a' | Var | '(' Path ')'

with the terms that stand in the path, from left to right (`DerivesPath`). Tokens are read as a path if and
only if the grammar derives terms from them, and what is read is the flat path over these terms, whatever
the parentheses (`Source.readAll_readPath_iff`). What is read is derived, reader by reader; what is derived
is read, by induction on the derivation. The bounds of the readers do not show.
-/

namespace GraphPattern.Shorthand

open Steps Source

/-- The tokens that stand for a predicate. -/
inductive NamesPredicate (prefixes : Prefixes) : TokenKind → Term → Prop
  | iri {kind : TokenKind} {iri : Iri} (h : Names prefixes kind iri) :
    NamesPredicate prefixes kind (.iri iri)
  | rdfType : NamesPredicate prefixes (.word "a") .rdfType
  | free (name : String) : NamesPredicate prefixes (.var name) (.free name)

/-- The forms of the grammar. -/
inductive PathForm where
  | path
  | step

/-- Whether the tokens are those of a path, or of a step, in which the terms stand. -/
inductive DerivesPath (prefixes : Prefixes) : PathForm → List TokenKind → List Term → Prop
  | predicate {kind : TokenKind} {t : Term} (h : NamesPredicate prefixes kind t) :
    DerivesPath prefixes .step [kind] [t]
  | parentheses {ks : List TokenKind} {ts : List Term} (h : DerivesPath prefixes .path ks ts) :
    DerivesPath prefixes .step (.leftParen :: (ks ++ [.rightParen])) ts
  /-- The steps after the first one are pairs of their tokens and their terms. -/
  | steps {ks : List TokenKind} {ts : List Term} {parts : List (List TokenKind × List Term)}
    (h : DerivesPath prefixes .step ks ts)
    (hparts : ∀ part ∈ parts, DerivesPath prefixes .step part.1 part.2) :
    DerivesPath prefixes .path (ks ++ parts.flatMap fun part => .slash :: part.1)
      (ts ++ parts.flatMap Prod.snd)

variable {prefixes : Prefixes} {s : Source} {form : PathForm} {ks : List TokenKind} {ts : List Term}
  {parts : List (List TokenKind × List Term)} {nested nested' step step' : Reader Path}

/-! ## What is read is derived -/

/-- Whether the tokens are those of a path, or of a step, over whose terms the path is. -/
def IsPathOf (prefixes : Prefixes) (form : PathForm) (ks : List TokenKind) (p : Path) : Prop :=
  ∃ ts, DerivesPath prefixes form ks ts ∧ Path.ofTerms? ts = some p

/-- Whether the tokens are those of steps, each after a slash, over whose terms the paths are. -/
def AreMoreSteps (prefixes : Prefixes) (ks : List TokenKind) (ps : List Path) : Prop :=
  ∃ parts : List (List TokenKind × List Term),
    (∀ part ∈ parts, DerivesPath prefixes .step part.1 part.2) ∧
      ks = (parts.flatMap fun part => .slash :: part.1) ∧
        ps.flatMap Path.steps = (parts.flatMap Prod.snd).map .predicate

namespace Source

theorem readBareStep_sound (hn : Sound (IsPathOf s.prefixes .path) nested) :
    Sound (IsPathOf s.prefixes .step) (s.readBareStep nested) := by
  intro us p rest h
  cases us with
  | nil => cases h
  | cons token us =>
    obtain ⟨kind, span⟩ := token
    cases kind with
    | leftParen =>
      obtain ⟨⟨q, rest₁⟩, hq, h⟩ := except_bind_eq_ok.mp h
      obtain ⟨rest₂, hclose, h⟩ := except_bind_eq_ok.mp h
      cases h
      obtain ⟨vs, rfl, ts, hvs, hts⟩ := hn hq
      obtain ⟨c, rfl, hc⟩ := exists_of_expect hclose
      refine ⟨⟨.leftParen, span⟩ :: (vs ++ [c]), by simp, ts, ?_, hts⟩
      simpa [hc] using DerivesPath.parentheses hvs
    | iriRef text =>
      cases h
      exact ⟨[_], rfl, _, .predicate (.iri (.iriRef text)), rfl⟩
    | prefixedName label name =>
      obtain ⟨iri, hiri, h⟩ := except_bind_eq_ok.mp h
      cases h
      exact ⟨[_], rfl, _, .predicate (.iri (.prefixedName (expand_eq_ok.mp hiri))), rfl⟩
    | var name =>
      cases h
      exact ⟨[_], rfl, _, .predicate (.free name), rfl⟩
    | word text =>
      simp only [readBareStep] at h
      split at h
      · rename_i ha
        cases h
        cases ha
        exact ⟨[_], rfl, _, .predicate .rdfType, rfl⟩
      · cases h
    | _ => cases h

theorem readStep_sound (hn : Sound (IsPathOf s.prefixes .path) nested) :
    Sound (IsPathOf s.prefixes .step) (s.readStep nested) := by
  intro us p rest h
  obtain ⟨_, _, h⟩ := except_bind_eq_ok.mp h
  obtain ⟨⟨q, _⟩, hq, h⟩ := except_bind_eq_ok.mp h
  obtain ⟨_, _, h⟩ := except_bind_eq_ok.mp h
  cases h
  exact readBareStep_sound hn hq

theorem readMoreSteps_sound (hstep : Sound (IsPathOf prefixes .step) step) (limit : Nat) :
    Sound (AreMoreSteps prefixes) (readMoreSteps step limit) := by
  induction limit with
  | zero =>
    intro us ps rest h
    cases h
    exact ⟨[], rfl, [], nofun, rfl, rfl⟩
  | succ limit ih =>
    intro us ps rest h
    rw [readMoreSteps] at h
    split at h
    · rename_i hslash
      obtain ⟨⟨p, rest₁⟩, hp, h⟩ := except_bind_eq_ok.mp h
      obtain ⟨⟨qs, rest₂⟩, hqs, h⟩ := except_bind_eq_ok.mp h
      cases h
      obtain ⟨t, us, rfl, ht⟩ := exists_of_nextKind hslash
      obtain ⟨vs, rfl, ts, hvs, hts⟩ := hstep hp
      obtain ⟨ws, rfl, parts, hparts, hws, hsteps⟩ := ih hqs
      refine ⟨t :: (vs ++ ws), by simp, (vs.map Token.kind, ts) :: parts,
        List.forall_mem_cons.mpr ⟨hvs, hparts⟩, ?_, ?_⟩
      · simp [ht, hws]
      · rw [List.flatMap_cons, hsteps, Path.steps_of_ofTerms? hts, List.flatMap_cons,
          List.map_append]
    · cases h
      exact ⟨[], rfl, [], nofun, rfl, rfl⟩

theorem readSteps_sound (hn : Sound (IsPathOf s.prefixes .path) nested) :
    Sound (IsPathOf s.prefixes .path) (s.readSteps nested) := by
  intro us p rest hread
  obtain ⟨⟨q, rest₁⟩, hq, hmore⟩ := except_bind_eq_ok.mp hread
  obtain ⟨⟨qs, rest₂⟩, hqs, hreject⟩ := except_bind_eq_ok.mp hmore
  obtain ⟨_, _, h⟩ := except_bind_eq_ok.mp hreject
  have hstep := readStep_sound hn
  obtain ⟨vs, rfl, ts, hvs, hts⟩ := hstep hq
  obtain ⟨ws, rfl, parts, hparts, hws, hsteps⟩ := readMoreSteps_sound hstep _ hqs
  split at h
  · rename_i hseq
    cases h
    rw [Path.sequence?_cons hts hsteps] at hseq
    refine ⟨vs ++ ws, by simp, _, ?_, hseq⟩
    rw [List.map_append, hws]
    exact .steps hvs hparts
  · cases h

/-- What is read off tokens is derived from those of them that are taken. -/
theorem readPathWithin_sound (s : Source) (depth : Nat) :
    Sound (IsPathOf s.prefixes .path) (s.readPathWithin depth) := by
  induction depth with
  | zero => nofun
  | succ depth ih => exact readSteps_sound ih

end Source

/-! ## What is derived is read -/

/-- Whether no operator comes next that paths do not have. -/
def EndsStep (us : List Token) : Prop := (nextKind us).bind TokenKind.pathOperator? = none

/-- Whether a path ends before the tokens: neither such an operator comes next nor a slash. -/
def EndsPath (us : List Token) : Prop := EndsStep us ∧ nextKind us ≠ some .slash

theorem rejectOperator_of_endsStep {us : List Token} (h : EndsStep us) :
    s.rejectOperator us = .ok () := by
  unfold rejectOperator
  rw [h]

theorem NamesPredicate.pathOperator? {kind : TokenKind} {t : Term}
    (h : NamesPredicate prefixes kind t) : kind.pathOperator? = none := by
  cases h with
  | iri h => cases h <;> rfl
  | rdfType => rfl
  | free name => rfl

theorem DerivesPath.ne_nil (h : DerivesPath prefixes form ks ts) : ks ≠ [] := by
  induction h with
  | predicate h => exact List.cons_ne_nil _ _
  | parentheses h => exact List.cons_ne_nil _ _
  | steps _ _ ih _ => exact List.append_ne_nil_of_left_ne_nil ih _

/-- Whether the tokens are read as a path over the terms, where it ends after them. -/
def ReadsPath (r : Reader Path) (Ends : List Token → Prop) (ks : List TokenKind) (ts : List Term) :
    Prop :=
  ∀ ⦃us rest⦄, us.map Token.kind = ks → Ends rest →
    ∃ p, Path.ofTerms? ts = some p ∧ r (us ++ rest) = .ok (p, rest)

/-- Whether the tokens are read as what they are in the grammar, by readers of as many levels of
parentheses as there may be. -/
def IsReadAs (s : Source) : PathForm → List TokenKind → List Term → Prop
  | .path, ks, ts => ∀ n, ks.length ≤ n → ReadsPath (s.readPathWithin n) EndsPath ks ts
  | .step, ks, ts => ∀ n, ks.length ≤ n + 1 →
    ReadsPath (s.readStep (s.readPathWithin n)) EndsStep ks ts

/-- A step is read if no operator that paths do not have stands before it or after it. -/
theorem readStep_of_readBareStep {us rest : List Token} {p : Path} (hfirst : EndsStep us)
    (hbare : s.readBareStep nested us = .ok (p, rest)) (hrest : EndsStep rest) :
    s.readStep nested us = .ok (p, rest) := by
  rw [readStep, rejectOperator_of_endsStep hfirst, hbare]
  show (s.rejectOperator rest >>= _) = _
  rw [rejectOperator_of_endsStep hrest]
  rfl

theorem readsPath_predicate {kind : TokenKind} {t : Term} (h : NamesPredicate s.prefixes kind t) :
    ReadsPath (s.readStep nested) EndsStep [kind] [t] := by
  intro us rest hus hrest
  obtain ⟨span, rfl⟩ := exists_of_map_eq_singleton hus
  have hbare : s.readBareStep nested (⟨kind, span⟩ :: rest) = .ok (.predicate t, rest) := by
    cases h with
    | iri h =>
      cases h with
      | iriRef text => rfl
      | prefixedName hiri =>
        show (s.expand _ _ span >>= _) = _
        rw [expand_eq_ok.mpr hiri]
        rfl
    | rdfType => rfl
    | free name => rfl
  exact ⟨_, rfl, readStep_of_readBareStep h.pathOperator? hbare hrest⟩

theorem ReadsPath.parenthesize (h : ReadsPath nested EndsPath ks ts) :
    ReadsPath (s.readStep nested) EndsStep (.leftParen :: (ks ++ [.rightParen])) ts := by
  intro us rest hus hrest
  obtain ⟨span, vs, c, rfl, hvs, hc⟩ := exists_of_map_eq_parentheses hus
  have hends : EndsPath (c :: rest) := by
    constructor
    · rw [EndsStep, nextKind_cons, hc]
      rfl
    · rw [nextKind_cons, hc]
      nofun
  obtain ⟨p, hp, hread⟩ := h hvs hends
  have hbare : s.readBareStep nested (⟨.leftParen, span⟩ :: (vs ++ c :: rest)) = .ok (p, rest) := by
    show (nested (vs ++ c :: rest) >>= _) = _
    rw [hread]
    show (s.expect _ _ (c :: rest) >>= _) = _
    rw [expect_of_eq hc]
    rfl
  refine ⟨p, hp, ?_⟩
  rw [List.cons_append, List.append_assoc, List.singleton_append]
  exact readStep_of_readBareStep rfl hbare hrest

/-- A step ends before the next one and before what a path ends before. -/
theorem endsStep_append {us rest : List Token}
    (hus : us.map Token.kind = parts.flatMap fun part => .slash :: part.1) (hrest : EndsPath rest) :
    EndsStep (us ++ rest) := by
  cases parts with
  | nil =>
    obtain rfl := List.map_eq_nil_iff.mp hus
    exact hrest.1
  | cons part parts =>
    obtain ⟨t, _, rfl, ht, _⟩ := List.map_eq_cons_iff.mp hus
    rw [List.cons_append, EndsStep, nextKind_cons, ht]
    rfl

/-- Steps with slashes in front are read one after the other. -/
theorem readMoreSteps_of_readsPath
    (h : ∀ part ∈ parts, ReadsPath step EndsStep part.1 part.2) {us rest : List Token}
    (hus : us.map Token.kind = parts.flatMap fun part => .slash :: part.1) (hrest : EndsPath rest)
    {limit : Nat} (hlimit : us.length ≤ limit) :
    ∃ ps, ps.flatMap Path.steps = (parts.flatMap Prod.snd).map .predicate ∧
      readMoreSteps step limit (us ++ rest) = .ok (ps, rest) := by
  induction parts generalizing us limit with
  | nil =>
    obtain rfl := List.map_eq_nil_iff.mp hus
    refine ⟨[], rfl, ?_⟩
    cases limit with
    | zero => rfl
    | succ limit => rw [List.nil_append, readMoreSteps, if_neg hrest.2]
  | cons part parts ih =>
    obtain ⟨hpart, hparts⟩ := List.forall_mem_cons.mp h
    rw [List.flatMap_cons, List.cons_append] at hus
    obtain ⟨t, _, rfl, ht, htail⟩ := List.map_eq_cons_iff.mp hus
    obtain ⟨vs, ws, rfl, hvs, hws⟩ := List.map_eq_append_iff.mp htail
    rw [List.length_cons, List.length_append] at hlimit
    cases limit with
    | zero => omega
    | succ limit =>
      obtain ⟨p, hp, hread⟩ := hpart hvs (endsStep_append hws hrest)
      have hlimit : ws.length ≤ limit := by omega
      obtain ⟨ps, hps, hmore⟩ := ih hparts hws hlimit
      refine ⟨p :: ps, ?_, ?_⟩
      · rw [List.flatMap_cons, hps, Path.steps_of_ofTerms? hp, List.flatMap_cons, List.map_append]
      · rw [List.cons_append, List.append_assoc, readMoreSteps, nextKind_cons, ht, if_pos rfl]
        show (step (vs ++ (ws ++ rest)) >>= _) = _
        rw [hread]
        show (readMoreSteps step limit (ws ++ rest) >>= _) = _
        rw [hmore]
        rfl

theorem ReadsPath.steps (h : ReadsPath (s.readStep nested) EndsStep ks ts)
    (hparts : ∀ part ∈ parts, ReadsPath (s.readStep nested) EndsStep part.1 part.2) :
    ReadsPath (s.readSteps nested) EndsPath (ks ++ parts.flatMap fun part => .slash :: part.1)
      (ts ++ parts.flatMap Prod.snd) := by
  intro us rest hus hrest
  obtain ⟨vs, ws, rfl, hvs, hws⟩ := List.map_eq_append_iff.mp hus
  obtain ⟨p, hp, hread⟩ := h hvs (endsStep_append hws hrest)
  have hlimit : ws.length ≤ (ws ++ rest).length := by simp
  obtain ⟨ps, hps, hmore⟩ := readMoreSteps_of_readsPath hparts hws hrest hlimit
  obtain ⟨q, hq⟩ := Path.exists_ofTerms?_append hp (parts.flatMap Prod.snd)
  have hseq : Path.sequence? (p :: ps) = some q := (Path.sequence?_cons hp hps).trans hq
  refine ⟨q, hq, ?_⟩
  rw [List.append_assoc, readSteps, hread]
  show (readMoreSteps (s.readStep nested) _ (ws ++ rest) >>= _) = _
  rw [hmore]
  show (s.rejectOperator rest >>= _) = _
  rw [rejectOperator_of_endsStep hrest.1, except_ok_bind, hseq]

/-- What is derived is read as it is derived. -/
theorem DerivesPath.isReadAs (h : DerivesPath s.prefixes form ks ts) : IsReadAs s form ks ts := by
  induction h with
  | predicate h => exact fun _ _ => readsPath_predicate h
  | parentheses _ ih =>
    intro n hn
    rw [List.length_cons, List.length_append, List.length_singleton] at hn
    -- the parentheses are two tokens, so the nested reader still has levels enough
    exact (ih n (by omega)).parenthesize
  | steps h _ ih ihparts =>
    intro n hn
    have hpos := List.length_pos_iff.mpr h.ne_nil
    rw [List.length_append] at hn
    cases n with
    | zero => omega
    | succ n =>
      refine ReadsPath.steps (ih n (by omega)) fun part hpart => ihparts part hpart n ?_
      obtain ⟨before, after, rfl⟩ := List.append_of_mem hpart
      simp at hn
      omega

/-! ## The bounds of the readers -/

namespace Agree

variable {n : Nat}

theorem readBareStep (h : Agree n nested nested') :
    Agree (n + 1) (s.readBareStep nested) (s.readBareStep nested') := by
  intro us hus
  cases us with
  | nil => rfl
  | cons t us =>
    obtain ⟨kind, span⟩ := t
    cases kind with
    | leftParen =>
      show (nested us >>= _) = (nested' us >>= _)
      rw [h (Nat.le_of_succ_le_succ hus)]
    | _ => rfl

theorem readStep (h : Agree n nested nested') :
    Agree (n + 1) (s.readStep nested) (s.readStep nested') := by
  intro us hus
  rw [Source.readStep, Source.readStep, readBareStep h hus]

theorem readMoreSteps (hstep : Sound (IsPathOf prefixes .step) step) (h : Agree n step step')
    (limit : Nat) : Agree n (readMoreSteps step limit) (readMoreSteps step' limit) := by
  induction limit with
  | zero => exact fun _ _ => rfl
  | succ limit ih =>
    intro us hus
    rw [Source.readMoreSteps, Source.readMoreSteps]
    split
    · have hdrop := length_drop_le hus 1
      rw [← h hdrop]
      refine except_bind_congr ?_
      rintro ⟨p, rest⟩ hread
      show (Source.readMoreSteps step limit rest >>= _) = _
      rw [ih (Nat.le_trans (hstep.length_le hread) hdrop)]
    · rfl

theorem readSteps (hn : Sound (IsPathOf s.prefixes .path) nested) (h : Agree n nested nested') :
    Agree (n + 1) (s.readSteps nested) (s.readSteps nested') := by
  intro us hus
  rw [Source.readSteps, Source.readSteps, ← readStep h hus]
  refine except_bind_congr ?_
  rintro ⟨p, rest⟩ hread
  have hstep := readStep_sound hn
  show (Source.readMoreSteps (s.readStep nested) rest.length rest >>= _) = _
  rw [readMoreSteps hstep (readStep h) _ (Nat.le_trans (hstep.length_le hread) hus)]

/-- No more steps follow one than there are tokens. -/
theorem readMoreSteps_add (hstep : Sound (IsPathOf prefixes .step) step) (extra : Nat)
    {limit : Nat} :
    Agree limit (Source.readMoreSteps step (limit + extra)) (Source.readMoreSteps step limit) := by
  induction limit with
  | zero =>
    intro us hus
    obtain rfl := List.length_eq_zero_iff.mp (Nat.le_zero.mp hus)
    cases extra <;> rfl
  | succ limit ih =>
    intro us hus
    rw [Nat.succ_add, Source.readMoreSteps, Source.readMoreSteps]
    split
    · refine except_bind_congr ?_
      rintro ⟨p, rest⟩ hread
      have hrest := hstep.length_le hread
      rw [List.length_drop] at hrest
      show (Source.readMoreSteps step (limit + extra) rest >>= _) = _
      rw [ih (by omega)]
    · rfl

end Agree

namespace Source

theorem agree_readPathWithin (s : Source) (extra n : Nat) :
    Agree n (s.readPathWithin (n + extra)) (s.readPathWithin n) := by
  induction n with
  | zero =>
    intro us hus
    obtain rfl := List.length_eq_zero_iff.mp (Nat.le_zero.mp hus)
    cases extra <;> rfl
  | succ n ih =>
    rw [Nat.succ_add]
    exact Agree.readSteps (readPathWithin_sound s _) ih

/-! ## Tokens as a whole -/

/-- All tokens are read as the path over the terms that are derived from them: there is one. -/
theorem exists_readAll_of_derivesPath {us : List Token}
    (h : DerivesPath s.prefixes .path (us.map Token.kind) ts) :
    ∃ p, Path.ofTerms? ts = some p ∧ s.readAll s.readPath us = .ok p := by
  have hends : EndsPath [] := ⟨rfl, nofun⟩
  obtain ⟨p, hp, hread⟩ := h.isReadAs us.length (by simp) rfl hends
  rw [List.append_nil] at hread
  refine ⟨p, hp, ?_⟩
  rw [readAll, readPath, hread]
  rfl

theorem readAll_of_derivesPath {us : List Token} {p : Path}
    (h : DerivesPath s.prefixes .path (us.map Token.kind) ts) (hp : Path.ofTerms? ts = some p) :
    s.readAll s.readPath us = .ok p := by
  obtain ⟨q, hq, hread⟩ := exists_readAll_of_derivesPath h
  rw [hp] at hq
  cases hq
  exact hread

/-- What all tokens are read as is the path over terms that are derived from them. -/
theorem isPathOf_of_readAll {us : List Token} {p : Path} (hall : s.readAll s.readPath us = .ok p) :
    IsPathOf s.prefixes .path (us.map Token.kind) p := by
  obtain ⟨⟨q, rest⟩, hread, h⟩ := except_bind_eq_ok.mp hall
  obtain ⟨vs, rfl, hvs⟩ := readPathWithin_sound _ _ hread
  cases rest with
  | nil =>
    cases h
    rwa [List.append_nil]
  | cons t rest => cases h

/-- No bound of the readers shows, on parentheses or on the steps that follow one, so reading comes to
an end by itself. All tokens are read as a path exactly if the grammar derives terms from them, and as
the path over these terms, from left to right and flat: a predicate, or a sequence of nothing but
predicates. -/
theorem readAll_readPath_iff (s : Source) :
    (Saturates s.readPathWithin ∧
      ∀ depth, Saturates (readMoreSteps (s.readStep (s.readPathWithin depth)))) ∧
      ∀ us, ((∃ p, s.readAll s.readPath us = .ok p) ↔
          ∃ ts, DerivesPath s.prefixes .path (us.map Token.kind) ts) ∧
        ∀ p, s.readAll s.readPath us = .ok p ↔
          ∃ ts, DerivesPath s.prefixes .path (us.map Token.kind) ts ∧ Path.ofTerms? ts = some p := by
  constructor
  · refine ⟨fun us extra => agree_readPathWithin s extra us.length (Nat.le_refl _), ?_⟩
    intro depth us extra
    have hstep := readStep_sound (s.readPathWithin_sound depth)
    exact Agree.readMoreSteps_add hstep extra (Nat.le_refl _)
  · intro us
    refine ⟨⟨?_, ?_⟩, fun p => ⟨isPathOf_of_readAll, ?_⟩⟩
    · rintro ⟨p, hp⟩
      obtain ⟨ts, hts, _⟩ := isPathOf_of_readAll hp
      exact ⟨ts, hts⟩
    · rintro ⟨ts, hts⟩
      obtain ⟨p, _, hread⟩ := exists_readAll_of_derivesPath hts
      exact ⟨p, hread⟩
    · rintro ⟨ts, hts, hp⟩
      exact readAll_of_derivesPath hts hp

end Source

end GraphPattern.Shorthand
