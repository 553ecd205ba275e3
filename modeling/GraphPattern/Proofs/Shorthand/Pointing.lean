import GraphPattern.Proofs.Shorthand.Tiling

/-!
# Errors point into the text

A reader complains about a token of its text, about the label in front of a prefixed name, or about
the end (`Source.PointsAt`). `Source.Locates` says so of a reader, and `Located` has one law for
each way in which readers are put together. As tokens cover slices of the text, so do complaints, also
where the text was trimmed before it was read (`resolve_pointsInto`).
-/

namespace GraphPattern.Shorthand

open Text

/-! ## Complaints about tokens -/

/-- Whether a fault is about some tokens or about the end of their text. An unknown prefix is told
at the label of a prefixed name and its colon. -/
inductive Source.PointsAt (s : Source) (ts : List Token) : Fault → Prop where
  | token {complaint t} (hkind : complaint.kind ≠ .unknownPrefix) (ht : t ∈ ts) :
      s.PointsAt ts ⟨complaint, t.span⟩
  | finish {complaint} (hkind : complaint.kind ≠ .unknownPrefix) :
      s.PointsAt ts ⟨complaint, .point s.finish⟩
  | label {label name span} (ht : ⟨.prefixedName label name, span⟩ ∈ ts)
      (hlabel : s.prefixes.namespace? label = none) :
      s.PointsAt ts
        ⟨.unknownPrefix label, ⟨span.start, span.start + byteSize label.toList + 1⟩⟩

variable {s : Source} {ts us : List Token} {α β : Type}

theorem Source.PointsAt.mono {f : Fault} (h : s.PointsAt us f) (hsub : us ⊆ ts) :
    s.PointsAt ts f := by
  cases h with
  | token hkind ht => exact .token hkind (hsub ht)
  | finish hkind => exact .finish hkind
  | label ht hlabel => exact .label (hsub ht) hlabel

/-- Whether a computation on some tokens leaves only such tokens when it succeeds, and complains
about such tokens when it fails. -/
structure Located (s : Source) (ts : List Token) (left : α → List Token) (m : Except Fault α) :
    Prop where
  ok : ∀ a, m = .ok a → left a ⊆ ts
  error : ∀ f, m = .error f → s.PointsAt ts f

/-- Whether a reader leaves only tokens that it was given, and complains about such tokens. -/
def Source.Locates (s : Source) (r : Reader α) : Prop := ∀ ts, Located s ts Prod.snd (r ts)

namespace Located

variable {left : α → List Token} {left' : β → List Token} {m : Except Fault α}

theorem mono (h : Located s us left m) (hsub : us ⊆ ts) : Located s ts left m where
  ok a ha := List.Subset.trans (h.ok a ha) hsub
  error f hf := (h.error f hf).mono hsub

theorem pure {a : α} (h : left a ⊆ ts) : Located s ts left (.ok a) where
  ok b hb := by
    cases hb
    exact h
  error f hf := nomatch hf

/-- One token is taken. -/
theorem take {t : Token} {a : α} : Located s (t :: ts) Prod.snd (.ok (a, ts)) :=
  .pure (List.subset_cons_self t ts)

theorem bind {k : α → Except Fault β} (hm : Located s ts left m)
    (hk : ∀ a, left a ⊆ ts → Located s ts left' (k a)) : Located s ts left' (m >>= k) := by
  cases m with
  | ok a => exact hk a (hm.ok a rfl)
  | error f => exact ⟨nofun, fun g hg => by cases hg; exact hm.error f rfl⟩

theorem fault {c : Complaint} (hkind : c.kind ≠ .unknownPrefix) :
    Located s ts left (s.fault ts c) where
  ok a ha := nomatch ha
  error f hf := by
    cases hf
    cases ts with
    | nil => exact .finish hkind
    | cons t ts => exact .token hkind List.mem_cons_self

theorem expect (kind : ParseErrorKind) (wanted : TokenKind) (hkind : kind ≠ .unknownPrefix) :
    Located s ts id (s.expect kind wanted ts) := by
  unfold Source.expect
  split
  · exact .pure (List.drop_subset 1 ts)
  · exact .fault hkind

theorem expand {label name : String} {span : Span}
    (ht : ⟨.prefixedName label name, span⟩ ∈ ts) :
    Located s ts (fun _ => []) (s.expand label name span) := by
  unfold Source.expand
  split
  · exact .pure (List.nil_subset ts)
  · rename_i hnone
    refine ⟨nofun, fun f hf => ?_⟩
    cases hf
    exact .label ht (Option.map_eq_none_iff.mp hnone)

end Located

namespace Source

/-! ## Terms -/

theorem locates_readSuffix (value : String) (language : Option String) :
    s.Locates (s.readSuffix value language) := by
  intro ts
  unfold readSuffix
  split
  · exact .pure (List.Subset.refl _)
  · refine Located.mono ?_ (List.subset_cons_self _ _)
    split
    · exact .take
    · exact (Located.expand List.mem_cons_self).bind fun iri _ => .take
    · exact .fault nofun
  · exact .pure (List.Subset.refl _)

theorem locates_readNumber (sign : String) : s.Locates (s.readNumber sign) := by
  intro ts
  unfold readNumber
  split
  · exact .take
  · exact .take
  · exact .take
  · exact .fault nofun

theorem located_asTerm {result : Except Fault (Literal × List Token)}
    (h : Located s ts Prod.snd result) : Located s ts Prod.snd (asTerm result) := by
  cases result with
  | ok r => exact .pure (h.ok r rfl)
  | error f => exact ⟨nofun, fun g hg => by cases hg; exact h.error f rfl⟩

theorem locates_readTerm : s.Locates s.readTerm := by
  intro ts
  unfold readTerm
  split
  · exact .fault nofun
  · rename_i kind span rest
    split
    · exact .take
    · exact (Located.expand List.mem_cons_self).bind fun iri _ => .take
    · exact .take
    · exact .take
    · exact located_asTerm ((locates_readSuffix _ _ rest).mono (List.subset_cons_self _ _))
    · exact located_asTerm (locates_readNumber _ _)
    · exact located_asTerm (locates_readNumber _ _)
    · exact located_asTerm (locates_readNumber _ _)
    · exact located_asTerm ((locates_readNumber _ rest).mono (List.subset_cons_self _ _))
    · exact located_asTerm ((locates_readNumber _ rest).mono (List.subset_cons_self _ _))
    · exact .take
    · exact .fault nofun
    · exact .fault nofun
    · exact .fault nofun
    · exact .fault nofun

theorem locates_readVariable : s.Locates s.readVariable := by
  intro ts
  unfold readVariable
  split
  · exact .take
  · exact .take
  · exact .fault nofun

/-! ## Paths -/

theorem located_rejectOperator (ts : List Token) :
    Located s ts (fun _ => []) (s.rejectOperator ts) := by
  unfold rejectOperator
  split
  · exact .fault nofun
  · exact .pure (List.nil_subset ts)

section Paths

variable {nested : Reader Path} (hn : s.Locates nested)
include hn

theorem locates_readBareStep : s.Locates (s.readBareStep nested) := by
  intro ts
  unfold readBareStep
  split
  · exact .fault nofun
  · rename_i kind span rest
    split
    · refine ((hn rest).mono (List.subset_cons_self _ _)).bind fun ⟨path, rest⟩ hrest => ?_
      refine ((Located.expect .malformedPath .rightParen nofun).mono hrest).bind
        fun rest hrest => ?_
      exact .pure hrest
    · exact .take
    · exact (Located.expand List.mem_cons_self).bind fun iri _ => .take
    · exact .take
    · exact .fault nofun
    · exact .fault nofun
    · split
      · exact .take
      · exact .fault nofun

theorem locates_readStep : s.Locates (s.readStep nested) := by
  intro ts
  refine (located_rejectOperator ts).bind fun _ _ => ?_
  refine (locates_readBareStep hn ts).bind fun ⟨path, rest⟩ hrest => ?_
  exact ((located_rejectOperator rest).mono hrest).bind fun _ _ => .pure hrest

omit hn in
theorem locates_readMoreSteps {step : Reader Path} (hstep : s.Locates step) (limit : Nat) :
    s.Locates (readMoreSteps step limit) := by
  induction limit with
  | zero => exact fun ts => .pure (List.Subset.refl ts)
  | succ limit ih =>
    intro ts
    unfold readMoreSteps
    split
    · refine ((hstep _).mono (List.drop_subset 1 ts)).bind fun ⟨path, rest⟩ hrest => ?_
      exact ((ih rest).mono hrest).bind fun ⟨paths, rest⟩ hrest => .pure hrest
    · exact .pure (List.Subset.refl ts)

theorem locates_readSteps : s.Locates (s.readSteps nested) := by
  intro ts
  refine (locates_readStep hn ts).bind fun ⟨path, rest⟩ hrest => ?_
  refine ((locates_readMoreSteps (locates_readStep hn) rest.length rest).mono hrest).bind
    fun ⟨paths, rest⟩ hrest => ?_
  refine ((located_rejectOperator rest).mono hrest).bind fun _ _ => ?_
  split
  · exact .pure hrest
  · exact (Located.fault (c := .emptyPath) nofun).mono hrest

end Paths

theorem locates_readPathWithin (depth : Nat) : s.Locates (s.readPathWithin depth) := by
  -- a path in parentheses is read by the reader of one level less
  induction depth with
  | zero => exact fun ts => .fault nofun
  | succ depth ih => exact locates_readSteps ih

theorem locates_readPath : s.Locates s.readPath := fun ts => locates_readPathWithin ts.length ts

/-! ## Expressions -/

section Expressions

variable {nested : Reader Expression} (hn : s.Locates nested)
include hn

theorem locates_readMoreArguments (limit : Nat) :
    s.Locates (readMoreArguments nested limit) := by
  induction limit with
  | zero => exact fun ts => .pure (List.Subset.refl ts)
  | succ limit ih =>
    intro ts
    unfold readMoreArguments
    split
    · refine ((hn _).mono (List.drop_subset 1 ts)).bind fun ⟨e, rest⟩ hrest => ?_
      exact ((ih rest).mono hrest).bind fun ⟨es, rest⟩ hrest => .pure hrest
    · exact .pure (List.Subset.refl ts)

theorem locates_readArguments : s.Locates (s.readArguments nested) := by
  intro ts
  refine (Located.expect .malformedExpression .leftParen nofun).bind fun rest hrest => ?_
  split
  · exact .pure (List.Subset.trans (List.drop_subset 1 rest) hrest)
  · refine ((hn rest).mono hrest).bind fun ⟨e, rest⟩ hrest => ?_
    refine ((locates_readMoreArguments hn rest.length rest).mono hrest).bind
      fun ⟨es, rest⟩ hrest => ?_
    refine ((Located.expect .malformedExpression .rightParen nofun).mono hrest).bind
      fun rest hrest => ?_
    exact .pure hrest

theorem locates_readIriOrCall (iri : Iri) : s.Locates (s.readIriOrCall nested iri) := by
  intro ts
  unfold readIriOrCall
  split
  · exact (locates_readArguments hn ts).bind fun ⟨args, rest⟩ hrest => .pure hrest
  · exact .pure (List.Subset.refl ts)

/-- A word that stands alone is complained about at its own place. -/
theorem located_readWord {word : String} {t : Token} (ht : t ∈ ts) (hsub : us ⊆ ts) :
    Located s ts Prod.snd (s.readWord nested word t.span us) := by
  unfold readWord
  split
  · refine ((locates_readArguments hn us).mono hsub).bind fun ⟨args, rest⟩ hrest => ?_
    exact .pure hrest
  · split
    · exact .pure hsub
    · split
      · exact .pure hsub
      · exact ⟨nofun, fun f hf => by cases hf; exact .token nofun ht⟩

theorem locates_readPrimary : s.Locates (s.readPrimary nested) := by
  intro ts
  unfold readPrimary
  split
  · exact .fault nofun
  · rename_i kind span rest
    have hterm : ∀ ts, Located s ts Prod.snd (s.readTerm ts >>= fun r =>
        .ok (Expression.term r.1, r.2)) := fun ts =>
      (locates_readTerm ts).bind fun ⟨t, rest⟩ hrest => .pure hrest
    split
    · refine ((hn rest).mono (List.subset_cons_self _ _)).bind fun ⟨e, rest⟩ hrest => ?_
      refine ((Located.expect .malformedExpression .rightParen nofun).mono hrest).bind
        fun rest hrest => ?_
      exact .pure hrest
    · exact .take
    · exact (locates_readIriOrCall hn _ rest).mono (List.subset_cons_self _ _)
    · refine (Located.expand List.mem_cons_self).bind fun iri _ => ?_
      exact (locates_readIriOrCall hn iri rest).mono (List.subset_cons_self _ _)
    · exact hterm _
    · exact hterm _
    · exact hterm _
    · exact hterm _
    · exact hterm _
    · exact located_readWord hn List.mem_cons_self (List.subset_cons_self _ _)
    · exact .fault nofun

end Expressions

section Operators

variable {operand : Reader Expression} (ho : s.Locates operand)
include ho

theorem locates_readUnary : s.Locates (readUnary operand) := by
  intro ts
  induction ts with
  | nil => exact ho []
  | cons t ts ih =>
    unfold readUnary
    split
    · exact (ih.mono (List.subset_cons_self t ts)).bind fun ⟨e, rest⟩ hrest => .pure hrest
    · exact ho (t :: ts)

theorem locates_readChainFrom (op? : TokenKind → Option BinaryOp) (limit : Nat)
    (left : Expression) : s.Locates (readChainFrom operand op? limit left) := by
  induction limit generalizing left with
  | zero => exact fun ts => .pure (List.Subset.refl ts)
  | succ limit ih =>
    intro ts
    unfold readChainFrom
    split
    · refine ((ho _).mono (List.drop_subset 1 ts)).bind fun ⟨right, rest⟩ hrest => ?_
      exact (ih _ rest).mono hrest
    · exact .pure (List.Subset.refl ts)

theorem locates_readChain (op? : TokenKind → Option BinaryOp) :
    s.Locates (readChain operand op?) := by
  intro ts
  refine (ho ts).bind fun ⟨left, rest⟩ hrest => ?_
  exact (locates_readChainFrom ho op? rest.length left rest).mono hrest

theorem locates_readRelational {candidates : Reader (List Expression)}
    (hc : s.Locates candidates) : s.Locates (readRelational operand candidates) := by
  intro ts
  refine (ho ts).bind fun ⟨left, rest⟩ hrest => ?_
  have hdrop : ∀ n, rest.drop n ⊆ ts := fun n => List.Subset.trans (List.drop_subset n rest) hrest
  dsimp only
  split
  · exact ((ho _).mono (hdrop 1)).bind fun ⟨right, rest⟩ hrest => .pure hrest
  · split
    · exact ((hc _).mono (hdrop 1)).bind fun ⟨es, rest⟩ hrest => .pure hrest
    · split
      · exact ((hc _).mono (hdrop 2)).bind fun ⟨es, rest⟩ hrest => .pure hrest
      · exact .pure hrest

end Operators

theorem locates_readExpressionWithin (depth : Nat) :
    s.Locates (s.readExpressionWithin depth) := by
  induction depth with
  | zero => exact fun ts => .fault nofun
  | succ depth ih =>
    -- from tight to loose, as the readers are built on one another
    have hproduct := locates_readChain (locates_readUnary (locates_readPrimary ih))
      TokenKind.multiplicative?
    have hrelation := locates_readRelational
      (locates_readChain hproduct TokenKind.additive?) (locates_readArguments ih)
    exact locates_readChain (locates_readChain hrelation _) _

theorem locates_readExpression : s.Locates s.readExpression := fun ts =>
  locates_readExpressionWithin ts.length ts

/-- What is left over is complained about at its first token. -/
theorem located_readAll {r : Reader α} (hr : s.Locates r) (ts : List Token) :
    Located s ts (fun _ => []) (s.readAll r ts) := by
  refine (hr ts).bind fun ⟨a, rest⟩ hrest => ?_
  dsimp only
  split
  · exact .pure (List.nil_subset ts)
  · rename_i t _
    exact (Located.fault (c := .trailing t.kind) nofun).mono hrest

end Source

/-! ## Errors about a text -/

/-- Whether an error is about a slice of a text. The slice of an unknown prefix is the label
that has no namespace, and its colon. -/
structure PointsInto (prefixes : Prefixes) (token : String) (e : ParseError) : Prop where
  token_eq : e.token = token
  isIn : e.span.IsIn token
  label : e.kind = .unknownPrefix → ∃ label, prefixes.namespace? label = none ∧
    e.detail = (Complaint.unknownPrefix label).detail ∧ e.span.slice token = label ++ ":"

/-- Whether an error is about some of the characters of a text; they are a label without a namespace
and its colon if the error is an unknown prefix. -/
structure Marks (prefixes : Prefixes) (cs part : List Char) (e : ParseError) : Prop where
  covers : e.span.Covers cs part
  label : e.kind = .unknownPrefix → ∃ label, prefixes.namespace? label = none ∧
    e.detail = (Complaint.unknownPrefix label).detail ∧ part = label.toList ++ [':']

theorem Marks.pointsInto {prefixes : Prefixes} {token : String} {part : List Char}
    {e : ParseError} (h : Marks prefixes token.toList part e) (htoken : e.token = token) :
    PointsInto prefixes token e where
  token_eq := htoken
  isIn := h.covers.isIn
  label hkind := by
    obtain ⟨label, hlabel, hdetail, rfl⟩ := h.label hkind
    refine ⟨label, hlabel, hdetail, ?_⟩
    rw [h.covers.slice_eq, String.ofList_append, String.ofList_toList]

/-- A complaint about tokens is about characters of the text that they tile. -/
theorem Source.PointsAt.marks {cs : List Char} {f : Fault} (h : s.PointsAt ts f)
    (htiles : Tiles [] cs ts s.finish) (text : String) :
    ∃ part, Marks s.prefixes cs part (f.toError text) := by
  cases h with
  | token hkind ht =>
    obtain ⟨lexeme, _, hcovers, _⟩ := htiles.covers ht
    exact ⟨lexeme, hcovers, fun h => absurd h hkind⟩
  | finish hkind =>
    refine ⟨[], ⟨cs, [], by simp, ?_⟩, fun h => absurd h hkind⟩
    rw [htiles.finish_eq]
    rfl
  | @label label name span ht hlabel =>
    obtain ⟨lexeme, _, ⟨before, after, hcs, hspan⟩, hread⟩ := htiles.covers ht
    -- The token reads as the label, a colon and a name; the complaint leaves out the name.
    obtain rfl : lexeme = label.toList ++ [':'] ++ name.toList := by
      have hslice : String.ofList lexeme = label ++ ":" ++ name := hread
      simpa using congrArg String.toList hslice
    refine ⟨label.toList ++ [':'], ⟨before, name.toList ++ after, ?_, ?_⟩, fun _ => ?_⟩
    · simpa using hcs
    · obtain rfl : span = _ := hspan
      show Span.mk (byteSize before) (byteSize before + byteSize label.toList + 1) = _
      rw [byteSize_append, Nat.add_assoc]
      rfl
    · exact ⟨label, hlabel, rfl, rfl⟩

theorem marks_of_parse {reader : Source → Reader α} (hreader : ∀ s : Source, s.Locates (reader s))
    {prefixes : Prefixes} {text : String} {e : ParseError}
    (h : parse reader prefixes text = .error e) :
    ∃ part, Marks prefixes text.toList part e := by
  unfold parse at h
  cases hread : read reader prefixes text.toList with
  | ok a => rw [hread] at h; cases h
  | error f =>
    rw [hread] at h
    cases h
    unfold read at hread
    cases htokens : tokenize text.toList with
    | error g =>
      rw [htokens] at hread
      cases hread
      obtain ⟨hkind, part, hpart⟩ := covers_of_tokenize htokens
      exact ⟨part, hpart, fun h => absurd h hkind⟩
    | ok ts =>
      rw [htokens] at hread
      have hlocated := Source.located_readAll (hreader ⟨prefixes, ts.finish⟩) ts.items
      exact (hlocated.error f hread).marks (tiles_of_tokenize htokens) text

/-! ## Errors about a text with white space around it -/

theorem trimEnd_append (cs : List Char) : ∃ space, trimEnd cs ++ space = cs := by
  refine ⟨(cs.reverse.takeWhile isWhitespace).reverse, ?_⟩
  rw [trimEnd, ← List.reverse_append, List.takeWhile_append_dropWhile, List.reverse_reverse]

/-- An error about what is left of a text without its white space is one about the text. -/
theorem pointsInto_of_resolveWith {parser : String → Except ParseError α} {prefixes : Prefixes}
    (hparser : ∀ {text e}, parser text = .error e → ∃ part, Marks prefixes text.toList part e)
    {token : String} {e : ParseError} (h : resolveWith parser token = .error e) :
    PointsInto prefixes token e := by
  unfold resolveWith trimmed at h
  dsimp only at h
  split at h
  · cases h
    have hcovers : (Span.point (byteSize token.toList)).Covers token.toList [] :=
      ⟨token.toList, [], by simp, rfl⟩
    exact Marks.pointsInto ⟨hcovers, nofun⟩ rfl
  · generalize htext : trimEnd (trimStart token.toList) = text at h
    replace h : ((parser (String.ofList text)).mapError
        (·.within token (byteSize (token.toList.takeWhile isWhitespace)))) = .error e := h
    cases hp : parser (String.ofList text) with
    | ok a => rw [hp] at h; cases h
    | error f =>
      rw [hp] at h
      cases h
      obtain ⟨part, hpart⟩ := hparser hp
      obtain ⟨space, hspace⟩ := trimEnd_append (trimStart token.toList)
      rw [String.toList_ofList] at hpart
      have hcovers := hpart.covers.shift (token.toList.takeWhile isWhitespace) space
      rw [← htext, List.append_assoc, hspace, trimStart, List.takeWhile_append_dropWhile] at hcovers
      exact Marks.pointsInto ⟨hcovers, hpart.label⟩ rfl

/-- An error of any resolver is about a slice of the text that it was given, and one about an
unknown prefix is about the undeclared label and its colon. -/
theorem resolve_pointsInto (prefixes : Prefixes) (token : String) :
    (∀ e, resolveTerm prefixes token = .error e → PointsInto prefixes token e) ∧
      (∀ e, resolvePath prefixes token = .error e → PointsInto prefixes token e) ∧
      (∀ e, resolveExpression prefixes token = .error e → PointsInto prefixes token e) ∧
      ∀ e, resolveVariable token = .error e → PointsInto .empty token e := by
  refine ⟨fun e h => ?_, fun e h => ?_, fun e h => ?_, fun e h => ?_⟩
  · refine pointsInto_of_resolveWith (fun {text e} h => ?_) h
    split at h
    · cases h
    · exact marks_of_parse (fun _ => Source.locates_readTerm) h
  · exact pointsInto_of_resolveWith (marks_of_parse fun _ => Source.locates_readPath) h
  · exact pointsInto_of_resolveWith (marks_of_parse fun _ => Source.locates_readExpression) h
  · exact pointsInto_of_resolveWith (marks_of_parse fun _ => Source.locates_readVariable) h

theorem resolve_pointsInto_undeclared :
    ∃ e f, resolveTerm .empty "\u3000é:b" = .error e ∧ resolvePath .empty "\u3000é:b" = .error e ∧
      resolveExpression .empty "\u3000é:b" = .error e ∧ resolveVariable "\u3000é:b" = .error f ∧
      e.span = ⟨3, 6⟩ ∧ f.span = ⟨3, 7⟩ ∧
      PointsInto .empty "\u3000é:b" e ∧ PointsInto .empty "\u3000é:b" f := by
  -- The white space takes three bytes and the letter two.
  let e : ParseError :=
    ⟨.unknownPrefix, "no namespace registered for prefix 'é:'", ⟨3, 6⟩, "\u3000é:b"⟩
  let f : ParseError := ⟨.malformedVariable, "expected a variable", ⟨3, 7⟩, "\u3000é:b"⟩
  have hterm : resolveTerm .empty "\u3000é:b" = .error e := by decide +kernel
  have hpath : resolvePath .empty "\u3000é:b" = .error e := by decide +kernel
  have hexpression : resolveExpression .empty "\u3000é:b" = .error e := by decide +kernel
  have hvariable : resolveVariable "\u3000é:b" = .error f := by decide +kernel
  obtain ⟨h, _, _, hf⟩ := resolve_pointsInto .empty "\u3000é:b"
  exact ⟨e, f, hterm, hpath, hexpression, hvariable, rfl, rfl, h e hterm, hf f hvariable⟩

end GraphPattern.Shorthand
