import GraphPattern.Proofs.Layout.Expressions
import GraphPattern.Proofs.Layout.Lines
import GraphPattern.Proofs.Layout.Parts

/-!
# What the text of a pattern tells

The text of a clean pattern on one line tells what the pattern says, up to what is never written
(`Group.joinBlocks_normal_eq_of_text_eq`): how triples are divided into blocks, which variables have
been resolved, and what only other parts of a query show. A pattern without these, in which each triple
has a block of its own (`Element.IsWritten`), is told in full: its elements start in different ways, and
each has an end of its own.
-/

namespace GraphPattern

open Shorthand

variable {r s : List Char}

/-! ## Clean patterns -/

namespace Element

/-- Whether the element, apart from those below it, is made of terms with a property: paths are flat, a
union has an alternative, and names and what is called are clean. No expression holds a number with a
sign. -/
def IsMadeOf (P : Term → Prop) : Element → Prop
  | .block ts => ∀ t ∈ ts, t.IsMadeOf P
  | .union gs => gs ≠ []
  | .subQuery _ vs _ _ => ∀ v ∈ vs, v.IsMadeOf P
  | .bind e v => e.IsMadeOf P ∧ IsName v.name
  | .filter e => e.IsMadeOf P
  | .optional _ | .minus _ => True

/-- Whether all that the element holds is written: a block has one triple, a nested query no prefixes,
and the target of a `BIND` no value. -/
def IsBasic : Element → Prop
  | .block ts => ∃ t, ts = [t]
  | .subQuery _ _ _ p => p = .empty
  | .bind _ v => v.binding = none
  | .optional _ | .union _ | .minus _ | .filter _ => True

/-- Whether the element is clean, without resolved variables, and written as a whole. -/
structure IsWritten (e : Element) : Prop where
  clean : e.IsMadeOf Term.IsClean
  basic : e.IsBasic

end Element

/-- Whether the group is made of clean terms at every depth. Resolved variables are taken for their
values, as they are written. -/
def Group.IsClean (g : Group) : Prop :=
  Group.Everywhere (Element.IsMadeOf fun t => t.effective.IsClean) g

/-! ## Values in the place of variables -/

section Values

variable {P Q : Expression → Prop} {f : Term → Term}

mutual

theorem Expression.everywhere_map (h : ∀ e, P e → Q (e.map f)) :
    ∀ e : Expression, e.Everywhere P → (e.map f).Everywhere Q
  | .term t, he => h (.term t) he
  | .binary op l r, he =>
    ⟨h (.binary op l r) he.1, Expression.everywhere_map h l he.2.1,
      Expression.everywhere_map h r he.2.2⟩
  | .unary op e, he => ⟨h (.unary op e) he.1, Expression.everywhere_map h e he.2⟩
  | .call c es, he => ⟨h (.call c es) he.1, Expression.everywhereInAll_mapAll h es he.2⟩
  | .isIn e es negated, he =>
    ⟨h (.isIn e es negated) he.1, Expression.everywhere_map h e he.2.1,
      Expression.everywhereInAll_mapAll h es he.2.2⟩

theorem Expression.everywhereInAll_mapAll (h : ∀ e, P e → Q (e.map f)) : ∀ es : List Expression,
    Expression.EverywhereInAll P es → Expression.EverywhereInAll Q (Expression.mapAll f es)
  | [], _ => trivial
  | e :: es, hes =>
    ⟨Expression.everywhere_map h e hes.1, Expression.everywhereInAll_mapAll h es hes.2⟩

end

end Values

theorem Term.isSigned_effective (t : Term) : t.effective.IsSigned ↔ t.IsSigned := by
  induction t with
  | bound name value ih => exact ih
  | _ => exact Iff.rfl

section Effective

variable {P : Term → Prop}

theorem Expression.IsMadeOf.effective {e : Expression} (h : e.IsMadeOf fun t => P t.effective) :
    (e.map Term.effective).IsMadeOf P := by
  refine Expression.everywhere_map (fun e he => ?_) e h
  cases e with
  | term t => exact ⟨he.1, fun hsign => he.2 (t.isSigned_effective.mp hsign)⟩
  | call c es => exact he
  | _ => trivial

theorem Triple.IsMadeOf.effective {t : Triple} (h : t.IsMadeOf fun t => P t.effective) :
    (t.map Term.effective).IsMadeOf P where
  terms := by
    rw [Triple.terms_map]
    exact List.forall_mem_map.mpr h.terms
  path := h.path.map Term.effective

theorem Element.IsMadeOf.normal {e : Element} (h : e.IsMadeOf fun t => P t.effective) :
    (e.mapSlots .normal).IsMadeOf P := by
  cases e with
  | block ts => exact List.forall_mem_map.mpr fun t ht => (h t ht).effective
  | union gs =>
    cases gs with
    | nil => exact absurd rfl h
    | cons g gs => exact List.cons_ne_nil _ _
  | subQuery d vs g p =>
    refine List.forall_mem_map.mpr fun v hv => ⟨(h v hv).name, fun t ht => ?_⟩
    obtain ⟨u, hu, rfl⟩ := Option.map_eq_some_iff.mp ht
    exact (h v hv).value u hu
  | bind e v => exact ⟨h.1.effective, h.2⟩
  | filter e => exact Expression.IsMadeOf.effective h
  | _ => trivial

theorem Element.IsMadeOf.spread {e : Element} (h : e.IsMadeOf P) :
    ∀ f ∈ e.spread, f.IsMadeOf P ∧ f.IsBasic := by
  cases e with
  | block ts => exact List.forall_mem_map.mpr fun t ht =>
      ⟨List.forall_mem_singleton.mpr (h t ht), t, rfl⟩
  | union gs =>
    refine List.forall_mem_singleton.mpr ⟨?_, trivial⟩
    cases gs with
    | nil => exact absurd rfl h
    | cons g gs => exact List.cons_ne_nil _ _
  | subQuery d vs g p => exact List.forall_mem_singleton.mpr ⟨h, rfl⟩
  | bind e v => exact List.forall_mem_singleton.mpr ⟨h, rfl⟩
  | filter e => exact List.forall_mem_singleton.mpr ⟨h, trivial⟩
  | _ => exact List.forall_mem_singleton.mpr ⟨trivial, trivial⟩

theorem Element.IsBasic.mapSlots {e : Element} (h : e.IsBasic) (m : SlotMap) :
    (e.mapSlots m).IsBasic := by
  cases e with
  | block ts =>
    obtain ⟨t, rfl⟩ := h
    exact ⟨t.map m.term, rfl⟩
  | subQuery d vs g p => exact h
  | bind e v => exact h
  | _ => trivial

end Effective

/-- A clean pattern is written as a whole, once its triples are spread and variables have given way to
their values. -/
theorem Group.IsClean.isWritten {g : Group} (h : g.IsClean) :
    Group.Everywhere Element.IsWritten (mapSlots .normal (spread g)) :=
  everywhere_mapSlots
    (fun _ he => ⟨Element.IsMadeOf.normal he.1, Element.IsBasic.mapSlots he.2 .normal⟩) _
    (everywhere_spread (fun _ he => he.spread) g h)

/-! ## How elements start -/

namespace Element

/-- The character that the elements of a form start with, if they do not start like a term. -/
def lead? : Element → Option Char
  | .block _ => none
  | .optional _ => some 'O'
  | .union _ | .subQuery _ _ _ _ => some '{'
  | .minus _ => some 'M'
  | .bind _ _ => some 'B'
  | .filter _ => some 'F'

/-- Whether the text of an element of this form can start with the character. -/
def Leads (e : Element) (c : Char) : Prop :=
  match e.lead? with
  | some d => c = d
  | none => Term.isLead c = true

variable {e f : Element} {c : Char}

theorem mem_of_lead? {d : Char} (h : e.lead? = some d) : d ∈ ['O', '{', 'M', 'B', 'F'] := by
  cases e <;> cases h <;> decide

theorem exists_lead (he : e.IsWritten) : ∃ c cs, e.line = ' ' :: c :: cs ∧ e.Leads c := by
  cases e with
  | block ts =>
    obtain ⟨t, rfl⟩ := he.basic
    obtain ⟨c, cs, hcs, hc⟩ := Triple.exists_lead (he.clean t List.mem_cons_self)
    rw [line, List.flatMap_singleton, hcs]
    exact ⟨c, _, rfl, hc⟩
  | union gs =>
    cases gs with
    | nil => exact absurd rfl he.clean
    | cons g gs =>
      rw [line, Group.lineOfAlternatives]
      exact ⟨_, _, rfl, rfl⟩
  | _ =>
    rw [line]
    exact ⟨_, _, rfl, rfl⟩

/-- The first character tells the form, as no word and no brace starts like a term. -/
theorem Leads.lead?_eq_ite (h : e.Leads c) :
    e.lead? = if Term.isLead c = true then none else some c := by
  unfold Leads at h
  cases hlead : e.lead? with
  | none =>
    rw [hlead] at h
    rw [if_pos h]
  | some d =>
    rw [hlead] at h
    subst h
    have hmem := mem_of_lead? hlead
    simp only [List.mem_cons, List.not_mem_nil, or_false] at hmem
    rcases hmem with rfl | rfl | rfl | rfl | rfl <;> decide

/-- No element starts like the end of a group, a further alternative or the head of a query. -/
theorem Leads.not_mem (h : e.Leads c) : c ∉ ['}', 'U', 'S'] := by
  intro hc
  unfold Leads at h
  simp only [List.mem_cons, List.not_mem_nil, or_false] at hc
  cases hlead : e.lead? with
  | some d =>
    rw [hlead] at h
    subst h
    have hmem := mem_of_lead? hlead
    rcases hc with rfl | rfl | rfl <;> exact absurd hmem (by decide)
  | none =>
    rw [hlead] at h
    rcases hc with rfl | rfl | rfl <;> exact absurd h (by decide)

theorem lead?_eq_of_line (he : e.IsWritten) (hf : f.IsWritten) (h : e.line ++ r = f.line ++ s) :
    e.lead? = f.lead? := by
  obtain ⟨c, cs, hcs, hc⟩ := exists_lead he
  obtain ⟨d, ds, hds, hd⟩ := exists_lead hf
  rw [hcs, hds] at h
  obtain rfl := (List.cons.inj (List.cons.inj h).2).1
  exact hc.lead?_eq_ite.trans hd.lead?_eq_ite.symm

/-- No element is written like this text. -/
theorem line_append_ne {c : Char} (he : e.IsWritten) (hc : c ∈ ['}', 'U', 'S']) :
    ' ' :: c :: s ≠ e.line ++ r := by
  intro h
  obtain ⟨d, ds, hds, hd⟩ := exists_lead he
  rw [hds] at h
  obtain rfl := (List.cons.inj (List.cons.inj h).2).1
  exact hd.not_mem hc

end Element

/-! ## What is told by what is written -/

/-- Whether no further alternative of a union follows in this text. -/
def EndsUnion (cs : List Char) : Prop := ∀ rest, cs ≠ ' ' :: 'U' :: rest

/-- Whether a text that starts with the element tells the element and the rest. -/
def Element.IsTold (e : Element) : Prop :=
  ∀ (f : Element) (r s : List Char), f.Everywhere Element.IsWritten → EndsUnion r → EndsUnion s →
    e.line ++ r = f.line ++ s → e = f ∧ r = s

/-- Whether a text that starts with the group tells the group and the rest. -/
def Group.IsTold (g : Group) : Prop :=
  ∀ (h : Group) (r s : List Char), Group.Everywhere Element.IsWritten h →
    line g ++ r = line h ++ s → g = h ∧ r = s

theorem Group.isTold_of_forall {g : Group} (hg : Group.Everywhere Element.IsWritten g)
    (htold : ∀ e ∈ g, e.IsTold) : g.IsTold := by
  intro h r s hh htext
  simp only [line, List.cons_append, List.append_assoc, List.nil_append,
    lineInside_eq_flatMap] at htext
  -- a space and a brace are behind the last element, and no element starts like that
  have hend : ∀ rest : List Char, EndsUnion (' ' :: '}' :: rest) ∧ ∀ (e : Element) (x : List Char),
      e.Everywhere Element.IsWritten → ' ' :: '}' :: rest ≠ e.line ++ x :=
    fun rest => ⟨fun x h => absurd (List.cons.inj (List.cons.inj h).2).1 (by decide),
      fun e x he => Element.line_append_ne he.self (by decide)⟩
  have hfollow : ∀ (e : Element) (x : List Char), e.Everywhere Element.IsWritten →
      EndsUnion (e.line ++ x) := fun e x he rest hrest =>
    Element.line_append_ne he.self (by decide) hrest.symm
  obtain ⟨rfl, hbrace⟩ := flatMap_append_inj (Q := EndsUnion) (everywhere_iff.mp hg)
    (everywhere_iff.mp hh) hfollow (fun e he f hf x y hx hy hef => htold e he f x y hf hx hy hef)
    (hend r) (hend s) (List.cons.inj htext).2
  exact ⟨rfl, (List.append_right_inj [' ', '}']).mp hbrace⟩

/-- A group does not start like a nested query. -/
theorem Group.line_append_ne {g : Group} (hg : Group.Everywhere Element.IsWritten g) :
    line g ++ r ≠ '{' :: ' ' :: 'S' :: s := by
  intro h
  cases g with
  | nil =>
    rw [line, lineInside] at h
    cases h
  | cons e g =>
    rw [line, lineInside] at h
    simp only [List.cons_append, List.append_assoc, List.nil_append] at h
    exact Element.line_append_ne hg.1.self (by decide) (List.cons.inj h).2.symm

namespace Element

variable {e f : Element}

theorem isTold_block {ts : List Triple} (h : (Element.block ts).IsWritten) :
    (Element.block ts).IsTold := by
  intro f r s hf _ _ htext
  have hlead := lead?_eq_of_line h hf.self htext
  cases f with
  | block us =>
    obtain ⟨t, rfl⟩ := h.basic
    obtain ⟨u, rfl⟩ := hf.self.basic
    simp only [line, List.flatMap_singleton, List.cons_append, List.append_assoc,
      List.nil_append] at htext
    obtain ⟨rfl, hrest⟩ := Triple.render_append_inj (h.clean t List.mem_cons_self)
      (hf.self.clean u List.mem_cons_self) (delimits_space _) (delimits_space _)
      (List.cons.inj htext).2
    exact ⟨rfl, (List.append_right_inj [' ', '.']).mp hrest⟩
  | _ => cases hlead

/-- An element that is a word and a group is told if the group is. -/
theorem isTold_of_group {wrap : Group → Element} {word : List Char} {g : Group}
    (hline : ∀ g : Group, (wrap g).line = word ++ g.line)
    (hform : ∀ f : Element, (wrap g).lead? = f.lead? → ∃ g', f = wrap g')
    (hbelow : ∀ g : Group, (wrap g).Everywhere IsWritten → Group.Everywhere IsWritten g)
    (h : (wrap g).IsWritten) (hg : g.IsTold) : (wrap g).IsTold := by
  intro f r s hf _ _ htext
  obtain ⟨g', rfl⟩ := hform f (lead?_eq_of_line h hf.self htext)
  rw [hline, hline, List.append_assoc, List.append_assoc] at htext
  obtain ⟨rfl, hrest⟩ := hg g' r s (hbelow g' hf) (List.append_cancel_left htext)
  exact ⟨rfl, hrest⟩

theorem isTold_optional {g : Group} (h : (Element.optional g).IsWritten) (hg : g.IsTold) :
    (Element.optional g).IsTold := by
  apply isTold_of_group line_optional _ (fun _ h => h.2) h hg
  intro f hf
  cases f with
  | optional g' => exact ⟨g', rfl⟩
  | _ => cases hf

theorem isTold_minus {g : Group} (h : (Element.minus g).IsWritten) (hg : g.IsTold) :
    (Element.minus g).IsTold := by
  apply isTold_of_group line_minus _ (fun _ h => h.2) h hg
  intro f hf
  cases f with
  | minus g' => exact ⟨g', rfl⟩
  | _ => cases hf

/-- A union and a nested query start with a brace, but a group does not start like a query. -/
theorem line_union_ne_subQuery {gs : List (List Element)} {d : Bool} {vs : List Variable} {g : Group}
    {p : Prefixes} (h : (Element.union gs).Everywhere IsWritten) :
    (Element.union gs).line ++ r ≠ (Element.subQuery d vs g p).line ++ s := by
  intro htext
  cases gs with
  | nil => exact absurd rfl h.1.clean
  | cons g' gs =>
    rw [line_union_cons, line_subQuery, toList_renderHead] at htext
    simp only [List.cons_append, List.append_assoc] at htext
    exact Group.line_append_ne h.2.1 (List.cons.inj htext).2

theorem isTold_union {gs : List (List Element)} (h : (Element.union gs).Everywhere IsWritten)
    (hgs : ∀ g ∈ gs, Group.IsTold g) : (Element.union gs).IsTold := by
  intro f r s hf hr hs htext
  have hlead := lead?_eq_of_line h.1 hf.self htext
  cases f with
  | union hs' =>
    cases gs with
    | nil => exact absurd rfl h.1.clean
    | cons g gs =>
      cases hs' with
      | nil => exact absurd rfl hf.1.clean
      | cons g' hs' =>
        -- the first alternative is told, and the others have a word in front
        rw [List.forall_mem_cons] at hgs
        simp only [line_union_cons, List.cons_append, List.append_assoc] at htext
        obtain ⟨rfl, hfurther⟩ := hgs.1 g' _ _ hf.2.1 (List.cons.inj htext).2
        rw [Group.lineOfFurther_eq_flatMap, Group.lineOfFurther_eq_flatMap] at hfurther
        obtain ⟨rfl, hrest⟩ := flatMap_append_inj (Q := fun _ => True)
          (Group.everywhereInAll_iff.mp h.2.2) (Group.everywhereInAll_iff.mp hf.2.2)
          (fun _ _ _ => trivial)
          (fun a ha b hb x y _ _ hab => hgs.2 a ha b x y hb
            ((List.append_right_inj "UNION ".toList).mp (List.cons.inj hab).2))
          ⟨trivial, fun _ x _ => hr _⟩ ⟨trivial, fun _ x _ => hs _⟩ hfurther
        exact ⟨rfl, hrest⟩
  | subQuery d vs g p => exact absurd htext (line_union_ne_subQuery h)
  | _ => cases hlead

theorem isTold_subQuery {d : Bool} {vs : List Variable} {g : Group} {p : Prefixes}
    (h : (Element.subQuery d vs g p).IsWritten) (hg : g.IsTold) :
    (Element.subQuery d vs g p).IsTold := by
  intro f r s hf _ _ htext
  have hlead := lead?_eq_of_line h hf.self htext
  cases f with
  | subQuery d' vs' g' p' =>
    simp only [line_subQuery, List.cons_append, List.append_assoc, List.nil_append] at htext
    obtain ⟨rfl, rfl, hgroup⟩ := renderHead_append_inj h.clean hf.1.clean
      ((List.append_right_inj [' ', '{', ' ']).mp htext)
    obtain ⟨rfl, hend⟩ := hg g' _ _ hf.2 hgroup
    obtain rfl : p = .empty := h.basic
    obtain rfl : p' = .empty := hf.1.basic
    exact ⟨rfl, (List.append_right_inj [' ', '}']).mp hend⟩
  | union gs => exact absurd htext.symm (line_union_ne_subQuery hf)
  | _ => cases hlead

/-- An expression ends before the name that takes its value. -/
theorem closes_as : Expression.Closes 0 (' ' :: ("AS".toList ++ ' ' :: r)) :=
  .word (by decide) fun c => by
    cases c with
    | operator op => cases op <;> decide
    | membership negated => cases negated <;> decide

theorem isTold_bind {e : Expression} {v : Variable} (h : (Element.bind e v).IsWritten) :
    (Element.bind e v).IsTold := by
  intro f r s hf _ _ htext
  have hlead := lead?_eq_of_line h hf.self htext
  cases f with
  | bind e' v' =>
    simp only [line, List.cons_append, List.append_assoc, List.nil_append,
      Variable.toList_render] at htext
    obtain ⟨rfl, hname⟩ := Expression.render_append_inj h.clean.1 hf.self.clean.1 closes_as closes_as
      ((List.append_right_inj "BIND(".toList).mp (List.cons.inj htext).2)
    obtain ⟨hvar, hrest⟩ := name_append_inj h.clean.2 hf.self.clean.2 (delimits_paren r)
      (delimits_paren s)
      ((List.append_right_inj [' ', 'A', 'S', ' ', '?']).mp hname)
    obtain ⟨name, binding⟩ := v
    obtain ⟨name', binding'⟩ := v'
    cases hvar
    cases h.basic
    cases hf.self.basic
    exact ⟨rfl, (List.cons.inj hrest).2⟩
  | _ => cases hlead

theorem isTold_filter {e : Expression} (h : (Element.filter e).IsWritten) :
    (Element.filter e).IsTold := by
  intro f r s hf _ _ htext
  have hlead := lead?_eq_of_line h hf.self htext
  cases f with
  | filter e' =>
    simp only [line, List.cons_append, List.append_assoc, List.nil_append] at htext
    obtain ⟨rfl, hrest⟩ := Expression.render_append_inj h.clean hf.self.clean (.cons (by decide))
      (.cons (by decide)) ((List.append_right_inj "FILTER(".toList).mp (List.cons.inj htext).2)
    exact ⟨rfl, (List.cons.inj hrest).2⟩
  | _ => cases hlead

end Element

mutual

theorem Element.isTold : ∀ e : Element, e.Everywhere Element.IsWritten → e.IsTold
  | .block _, h => Element.isTold_block h
  | .optional g, h =>
    Element.isTold_optional h.1 (Group.isTold_of_forall h.2 (Group.forall_isTold g h.2))
  | .union gs, h => Element.isTold_union h (Group.isTold_all gs h.2)
  | .minus g, h =>
    Element.isTold_minus h.1 (Group.isTold_of_forall h.2 (Group.forall_isTold g h.2))
  | .subQuery _ _ g _, h =>
    Element.isTold_subQuery h.1 (Group.isTold_of_forall h.2 (Group.forall_isTold g h.2))
  | .bind _ _, h => Element.isTold_bind h
  | .filter _, h => Element.isTold_filter h

theorem Group.forall_isTold :
    ∀ g : List Element, Group.Everywhere Element.IsWritten g → ∀ e ∈ g, e.IsTold
  | [], _ => nofun
  | e :: g, h => List.forall_mem_cons.mpr ⟨Element.isTold e h.1, Group.forall_isTold g h.2⟩

theorem Group.isTold_all : ∀ gs : List (List Element),
    Group.EverywhereInAll Element.IsWritten gs → ∀ g ∈ gs, Group.IsTold g
  | [], _ => nofun
  | g :: gs, h => List.forall_mem_cons.mpr
      ⟨Group.isTold_of_forall h.1 (Group.forall_isTold g h.1), Group.isTold_all gs h.2⟩

end

namespace Group

variable {g h : Group}

/-- Groups that are written as a whole are the same if they are written alike. -/
theorem eq_of_line_eq (hg : Group.Everywhere Element.IsWritten g)
    (hh : Group.Everywhere Element.IsWritten h) (htext : line g = line h) : g = h :=
  (isTold_of_forall hg (forall_isTold g hg) h [] [] hh (by rw [htext])).1

/-- Clean patterns with the same text on one line say the same: they are equal once resolved variables
have given way to their values, empty blocks and all that only other parts of a query show are gone, and
blocks that follow one another are joined. -/
theorem joinBlocks_normal_eq_of_text_eq (hg : g.IsClean) (hh : h.IsClean) (htext : g.text = h.text) :
    joinBlocks g.normal = joinBlocks h.normal := by
  have hline : line (mapSlots .normal (spread g)) = line (mapSlots .normal (spread h)) := by
    rw [line_mapSlots_spread, line_mapSlots_spread, ← toList_text, ← toList_text, htext]
  rw [joinBlocks_normal, joinBlocks_normal, eq_of_line_eq hg.isWritten hh.isWritten hline]

/-- Two blocks and a resolved variable. -/
def splitPattern : Group :=
  [.block [⟨.free "s", .predicate (.iri ⟨"p"⟩), .bound "o" (.literal (.simple "v"))⟩], .block [],
    .block [⟨.free "s", .sequence [.predicate (.iri ⟨"q"⟩), .predicate (.iri ⟨"r"⟩)], .free "t"⟩],
    .bind (.unary .not (.term (.free "t"))) ⟨"x", some (.iri ⟨"p"⟩)⟩]

/-- One block, and the value of the variable. -/
def joinedPattern : Group :=
  [.block [⟨.free "s", .predicate (.iri ⟨"p"⟩), .literal (.simple "v")⟩,
      ⟨.free "s", .sequence [.predicate (.iri ⟨"q"⟩), .predicate (.iri ⟨"r"⟩)], .free "t"⟩],
    .bind (.unary .not (.term (.free "t"))) ⟨"x", none⟩]

theorem joinBlocks_normal_eq_split :
    splitPattern.IsClean ∧ joinedPattern.IsClean ∧ splitPattern.text = joinedPattern.text ∧
      joinBlocks splitPattern.normal = joinBlocks joinedPattern.normal := by
  have hs : IsName "s" := by decide
  have ht : IsName "t" := by decide
  have hp : Iri.IsPlain ⟨"p"⟩ := by decide
  have hv : (Literal.simple "v").IsClean := ⟨.inl rfl, nofun, nofun⟩
  have hpath : Triple.IsMadeOf (fun t => t.effective.IsClean)
      ⟨.free "s", .sequence [.predicate (.iri ⟨"q"⟩), .predicate (.iri ⟨"r"⟩)], .free "t"⟩ := by
    refine ⟨?_, by decide, ?_⟩
    · have hqr : Iri.IsPlain ⟨"q"⟩ ∧ Iri.IsPlain ⟨"r"⟩ := by decide
      rintro u (_ | ⟨_, _ | ⟨_, _ | ⟨_, _ | ⟨_, ⟨⟩⟩⟩⟩⟩)
      · exact hs
      · exact hqr.1
      · exact hqr.2
      · exact ht
    · exact List.forall_mem_cons.mpr ⟨trivial, List.forall_mem_singleton.mpr trivial⟩
  have hsplit : splitPattern.IsClean := by
    refine ⟨List.forall_mem_singleton.mpr ⟨?_, trivial⟩, nofun, List.forall_mem_singleton.mpr hpath,
      ⟨⟨trivial, ht, id⟩, by decide⟩, trivial⟩
    rintro u (_ | ⟨_, _ | ⟨_, _ | ⟨_, ⟨⟩⟩⟩⟩)
    · exact hs
    · exact hp
    · exact hv
  have hjoined : joinedPattern.IsClean := by
    refine ⟨List.forall_mem_cons.mpr ⟨⟨?_, trivial⟩, List.forall_mem_singleton.mpr hpath⟩,
      ⟨⟨trivial, ht, id⟩, by decide⟩, trivial⟩
    rintro u (_ | ⟨_, _ | ⟨_, _ | ⟨_, ⟨⟩⟩⟩⟩)
    · exact hs
    · exact hp
    · exact hv
  have htext : splitPattern.text = joinedPattern.text := by decide
  exact ⟨hsplit, hjoined, htext, joinBlocks_normal_eq_of_text_eq hsplit hjoined htext⟩

/-! A number with a sign is left out of expressions because the sign is written like an operator. -/

example : Group.text [.filter (.term (.literal (.integer (-5))))] =
    Group.text [.filter (.unary .neg (.term (.literal (.integer 5))))] := by decide

end Group

end GraphPattern
