import GraphPattern.Proofs.Shorthand.Kinds
import GraphPattern.Proofs.Shorthand.Slices
import Mathlib.Data.List.TakeWhile

/-!
# Tokens tile a text

The tokens of a text and the white space between them are the text again (`Tiles`): no character is
lost, read twice or read as part of the wrong token, and each token reads as the slice that its span
covers (`tokenize_lossless`). Where a text cannot be cut into tokens, the complaint is about a slice of
it.
-/

namespace GraphPattern.Shorthand

open Text

/-- Whether tokens and white space make up a text, which stands behind some characters and ends at an
offset. -/
inductive Tiles : List Char → List Char → List Token → Nat → Prop where
  | nil {before gap} (hgap : ∀ c ∈ gap, isWhitespace c = true) :
      Tiles before gap [] (byteSize (before ++ gap))
  | cons {before gap lexeme rest kind ts finish} (hgap : ∀ c ∈ gap, isWhitespace c = true)
      (hne : lexeme ≠ []) (hread : kind.IsReadOff (String.ofList lexeme))
      (h : Tiles (before ++ gap ++ lexeme) rest ts finish) :
      Tiles before (gap ++ lexeme ++ rest)
        (⟨kind, ⟨byteSize (before ++ gap), byteSize (before ++ gap ++ lexeme)⟩⟩ :: ts) finish

/-! ## Cutting -/

/-- What one step of cutting does, where it succeeds. White space is skipped, and then the text ends or
a token is read and the rest is cut. -/
theorem tokenizeFrom_succ_eq_ok {limit : Nat} {afterOperand : Bool} {before cs : List Char}
    {ts : Tokens} (h : tokenizeFrom (limit + 1) afterOperand (byteSize before) cs = .ok ts) :
    (∀ c ∈ cs, isWhitespace c = true) ∧ ts = ⟨[], byteSize (before ++ cs)⟩ ∨
      ∃ gap c rest s us, (∀ c ∈ gap, isWhitespace c = true) ∧ isWhitespace c = false ∧
        cs = gap ++ c :: rest ∧ scan afterOperand c rest = .ok s ∧
        tokenizeFrom limit s.kind.endsOperand (byteSize (before ++ gap ++ s.lexeme)) s.rest =
          .ok us ∧
        ts = ⟨⟨s.kind, ⟨byteSize (before ++ gap), byteSize (before ++ gap ++ s.lexeme)⟩⟩ ::
          us.items, us.finish⟩ := by
  have hgap : ∀ c ∈ cs.takeWhile isWhitespace, isWhitespace c = true := fun _ hc =>
    List.mem_takeWhile_imp hc
  have hcs := List.takeWhile_append_dropWhile (p := isWhitespace) (l := cs)
  have hhead := List.head?_dropWhile_not isWhitespace cs
  rw [tokenizeFrom] at h
  dsimp only at h
  rw [← byteSize_append] at h
  generalize cs.takeWhile isWhitespace = gap at h hgap hcs
  cases hd : cs.dropWhile isWhitespace with
  | nil =>
    rw [hd] at h hcs
    cases h
    rw [List.append_nil] at hcs
    subst hcs
    exact .inl ⟨hgap, rfl⟩
  | cons c rest =>
    rw [hd] at h hcs hhead
    dsimp only at h
    cases hs : scan afterOperand c rest with
    | error e =>
      rw [hs] at h
      cases h
    | ok s =>
      rw [hs] at h
      dsimp only at h
      rw [← byteSize_append] at h
      split at h
      · cases h
      · rename_i us hus
        cases h
        exact .inr ⟨gap, c, rest, s, us, hgap, hhead, hcs.symm, hs, hus, rfl⟩

/-- A text that can be cut into tokens is tiled by them, if the limit is not below the number of its
characters. -/
theorem tiles_of_tokenizeFrom {limit : Nat} {afterOperand : Bool} {before cs : List Char}
    {ts : Tokens} (hlimit : cs.length ≤ limit)
    (h : tokenizeFrom limit afterOperand (byteSize before) cs = .ok ts) :
    Tiles before cs ts.items ts.finish := by
  -- each token takes a character, so the limit stays a bound of what is left to cut
  induction limit generalizing afterOperand before cs ts with
  | zero =>
    obtain rfl := List.length_eq_zero_iff.mp (Nat.le_zero.mp hlimit)
    cases h
    have htiles : Tiles before [] [] (byteSize (before ++ [])) := .nil nofun
    simpa using htiles
  | succ limit ih =>
    obtain ⟨hspace, rfl⟩ | ⟨gap, c, rest, s, us, hgap, _, rfl, hs, hus, rfl⟩ :=
      tokenizeFrom_succ_eq_ok h
    · exact .nil hspace
    · have hlt := length_rest_lt hs
      rw [List.length_append] at hlimit
      rw [← lexeme_append_rest hs, ← List.append_assoc]
      exact .cons hgap (lexeme_ne_nil hs) (scan_isFaithful hs) (ih (by omega) hus)

/-- A complaint about characters covers a slice of the text. -/
theorem covers_of_tokenizeFrom {limit : Nat} {afterOperand : Bool} {before cs : List Char}
    {f : Fault} (h : tokenizeFrom limit afterOperand (byteSize before) cs = .error f) :
    f.complaint.kind ≠ .unknownPrefix ∧ ∃ part, f.span.Covers (before ++ cs) part := by
  induction limit generalizing afterOperand before cs with
  | zero => cases h
  | succ limit ih =>
    have hcs := List.takeWhile_append_dropWhile (p := isWhitespace) (l := cs)
    rw [tokenizeFrom] at h
    dsimp only at h
    rw [← byteSize_append] at h
    generalize cs.takeWhile isWhitespace = gap at h hcs
    cases hd : cs.dropWhile isWhitespace with
    | nil =>
      rw [hd] at h
      cases h
    | cons c rest =>
      rw [hd] at h hcs
      dsimp only at h
      cases hs : scan afterOperand c rest with
      | error e =>
        rw [hs] at h
        cases h
        obtain ⟨⟨after, hafter⟩, hkind⟩ := scan_isAbout hs
        refine ⟨hkind, e.lexeme, before ++ gap, after, ?_, rfl⟩
        rw [← hcs, ← hafter]
        simp
      | ok s =>
        rw [hs] at h
        dsimp only at h
        rw [← byteSize_append] at h
        split at h
        · rename_i g hg
          cases h
          obtain ⟨hkind, part, hpart⟩ := ih hg
          refine ⟨hkind, part, ?_⟩
          rw [← hcs, ← lexeme_append_rest hs]
          simpa using hpart
        · cases h

/-! ## What tokens cover -/

/-- The spans before, between and after some tokens, from one offset to another. -/
def gaps (start : Nat) : List Token → Nat → List Span
  | [], finish => [⟨start, finish⟩]
  | t :: ts, finish => ⟨start, t.span.start⟩ :: gaps t.span.finish ts finish

namespace Tiles

variable {before cs : List Char} {ts : List Token} {finish : Nat}

theorem finish_eq (h : Tiles before cs ts finish) : finish = byteSize (before ++ cs) := by
  induction h with
  | nil => rfl
  | cons _ _ _ _ ih => rw [ih]; simp

/-- Each token covers at least one character and reads as what it covers. -/
theorem covers (h : Tiles before cs ts finish) {t : Token} (ht : t ∈ ts) :
    ∃ lexeme, lexeme ≠ [] ∧ t.span.Covers (before ++ cs) lexeme ∧
      t.kind.IsReadOff (String.ofList lexeme) := by
  induction h with
  | nil => cases ht
  | @cons before gap lexeme rest kind ts finish _ hne hread _ ih =>
    rcases List.mem_cons.mp ht with rfl | ht
    · exact ⟨lexeme, hne, ⟨before ++ gap, rest, by simp, by simp [Nat.add_assoc]⟩, hread⟩
    · obtain ⟨part, hne, hcovers, hread⟩ := ih ht
      exact ⟨part, hne, by simpa using hcovers, hread⟩

/-- What stands between tokens is white space. -/
theorem covers_gaps (h : Tiles before cs ts finish) {gap : Span}
    (hgap : gap ∈ gaps (byteSize before) ts finish) :
    ∃ part, gap.Covers (before ++ cs) part ∧ ∀ c ∈ part, isWhitespace c = true := by
  induction h with
  | @nil before space hspace =>
    obtain rfl := List.mem_singleton.mp hgap
    exact ⟨space, ⟨before, [], by simp, by simp⟩, hspace⟩
  | @cons before space lexeme rest kind ts finish hspace _ _ _ ih =>
    rcases List.mem_cons.mp hgap with rfl | hgap
    · exact ⟨space, ⟨before, lexeme ++ rest, by simp, by simp⟩, hspace⟩
    · obtain ⟨part, hcovers, hpart⟩ := ih hgap
      exact ⟨part, by simpa using hcovers, hpart⟩

theorem le_start (h : Tiles before cs ts finish) {t : Token} (ht : t ∈ ts) :
    byteSize before ≤ t.span.start := by
  induction h with
  | nil => cases ht
  | cons _ _ _ _ ih =>
    rcases List.mem_cons.mp ht with rfl | ht
    · simp
    · have hle := ih ht
      simp only [byteSize_append] at hle
      omega

/-- Tokens stand in order and do not overlap. -/
theorem pairwise (h : Tiles before cs ts finish) :
    (ts.map Token.span).Pairwise fun a b => a.finish ≤ b.start := by
  induction h with
  | nil => exact .nil
  | cons _ _ _ h ih =>
    refine List.pairwise_cons.mpr ⟨fun span hspan => ?_, ih⟩
    obtain ⟨t, ht, rfl⟩ := List.mem_map.mp hspan
    exact h.le_start ht

end Tiles

/-! ## Whole texts -/

theorem tiles_of_tokenize {cs : List Char} {ts : Tokens} (h : tokenize cs = .ok ts) :
    Tiles [] cs ts.items ts.finish :=
  tiles_of_tokenizeFrom (Nat.le_refl _) (show tokenizeFrom _ _ (byteSize []) cs = .ok ts from h)

theorem covers_of_tokenize {cs : List Char} {f : Fault} (h : tokenize cs = .error f) :
    f.complaint.kind ≠ .unknownPrefix ∧ ∃ part, f.span.Covers cs part :=
  covers_of_tokenizeFrom (show tokenizeFrom _ _ (byteSize []) cs = .error f from h)

/-- Any text is cut into tokens or found fault with. Tokens end where the text ends; they stand in
order, do not overlap, and each of them covers a slice of the text, not an empty one, that reads as the
token. All that stands before, between and after them is white space. A fault covers a slice of the
text. -/
theorem tokenize_lossless (s : String) :
    match tokenize s.toList with
    | .ok ts =>
      ts.finish = s.utf8ByteSize ∧
        (ts.items.map Token.span).Pairwise (fun a b => a.finish ≤ b.start) ∧
        (∀ t ∈ ts.items, t.span.start < t.span.finish ∧ t.span.IsIn s ∧
          t.kind.IsReadOff (t.span.slice s)) ∧
        ∀ gap ∈ gaps 0 ts.items ts.finish, gap.IsIn s ∧
          ∀ c ∈ (gap.slice s).toList, isWhitespace c = true
    | .error f => f.span.IsIn s := by
  split
  · rename_i ts h
    have htiles := tiles_of_tokenize h
    refine ⟨?_, htiles.pairwise, fun t ht => ?_, fun gap hgap => ?_⟩
    · rw [htiles.finish_eq, utf8ByteSize_eq_byteSize]
      rfl
    · obtain ⟨lexeme, hne, hcovers, hread⟩ := htiles.covers ht
      rw [hcovers.slice_eq]
      exact ⟨hcovers.start_lt hne, hcovers.isIn, hread⟩
    · obtain ⟨part, hcovers, hpart⟩ := htiles.covers_gaps hgap
      rw [hcovers.slice_eq, String.toList_ofList]
      exact ⟨hcovers.isIn, hpart⟩
  · rename_i f h
    obtain ⟨_, part, hcovers⟩ := covers_of_tokenize h
    exact hcovers.isIn

end GraphPattern.Shorthand
