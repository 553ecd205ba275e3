import GraphPattern.Shorthand
import GraphPattern.Shorthand.Lexeme
import Mathlib.Data.String.Basic

/-!
# Slices of a text

A span of byte offsets covers a part of a text if characters of the text start at both of its ends, or
the text ends there. Then the part can be sliced out (`Span.Covers.slice_eq`), also of a longer text
in which the text stands (`Span.Covers.shift`).
-/

namespace GraphPattern

open Text

/-! ## Sizes -/

theorem Text.byteSize_eq_utf8Len (cs : List Char) : byteSize cs = String.utf8Len cs := by
  induction cs with
  | nil => rfl
  | cons c cs ih => rw [byteSize_cons, String.utf8Len_cons, ih, Nat.add_comm]

theorem Text.utf8ByteSize_eq_byteSize (s : String) : s.utf8ByteSize = byteSize s.toList := by
  rw [byteSize_eq_utf8Len, ← String.utf8ByteSize_ofList, String.ofList_toList]

namespace Span

/-- The part of a text between the ends of a span. -/
def slice (span : Span) (text : String) : String :=
  String.Pos.Raw.extract text ⟨span.start⟩ ⟨span.finish⟩

/-- Whether a text can be sliced at both ends of a span. -/
structure IsIn (span : Span) (text : String) : Prop where
  ordered : span.start ≤ span.finish
  bounded : span.finish ≤ text.utf8ByteSize
  start_valid : String.Pos.Raw.IsValid text ⟨span.start⟩
  finish_valid : String.Pos.Raw.IsValid text ⟨span.finish⟩

/-- Whether a span is that of a part of a text. -/
def Covers (span : Span) (text part : List Char) : Prop :=
  ∃ before after, text = before ++ part ++ after ∧
    span = ⟨byteSize before, byteSize before + byteSize part⟩

variable {span : Span} {text part : List Char}

theorem isValid_append (before after : List Char) :
    String.Pos.Raw.IsValid (String.ofList (before ++ after)) ⟨byteSize before⟩ := by
  refine String.Pos.Raw.isValid_iff_exists_append.mpr
    ⟨String.ofList before, String.ofList after, String.ofList_append, String.Pos.Raw.ext ?_⟩
  rw [String.byteIdx_rawEndPos, utf8ByteSize_eq_byteSize, String.toList_ofList]

theorem Covers.isIn {s : String} (h : span.Covers s.toList part) : span.IsIn s := by
  obtain ⟨before, after, htext, rfl⟩ := h
  rw [← String.ofList_toList (s := s), htext]
  refine ⟨Nat.le_add_right _ _, ?_, ?_, ?_⟩
  · rw [utf8ByteSize_eq_byteSize, String.toList_ofList, byteSize_append, byteSize_append]
    exact Nat.le_add_right _ _
  · rw [List.append_assoc]
    exact isValid_append before (part ++ after)
  · rw [← byteSize_append]
    exact isValid_append (before ++ part) after

theorem Covers.slice_eq {s : String} (h : span.Covers s.toList part) :
    span.slice s = String.ofList part := by
  obtain ⟨before, after, htext, rfl⟩ := h
  rw [← String.ofList_toList (s := s), htext, slice, byteSize_eq_utf8Len, byteSize_eq_utf8Len]
  exact String.extract_of_valid before part after

theorem Covers.start_lt (h : span.Covers text part) (hne : part ≠ []) :
    span.start < span.finish := by
  obtain ⟨before, after, _, rfl⟩ := h
  exact Nat.lt_add_of_pos_right (byteSize_pos hne)

/-- A part of a text is one of a longer text. -/
theorem Covers.shift (h : span.Covers text part) (before after : List Char) :
    (span.shift (byteSize before)).Covers (before ++ text ++ after) part := by
  obtain ⟨front, back, rfl, rfl⟩ := h
  refine ⟨before ++ front, back ++ after, by simp, ?_⟩
  simp only [Span.shift, byteSize_append, Span.mk.injEq]
  omega

end Span

namespace Shorthand

/-! ## What tokens are read off -/

/-- Whether a text with escapes in it, between quotes, says a value. -/
inductive Unescapes (quote : Char) : List Char → List Char → Prop where
  | nil : Unescapes quote [] []
  | plain {c raw value} (hquote : c ≠ quote) (hslash : c ≠ '\\') (h : Unescapes quote raw value) :
      Unescapes quote (c :: raw) (c :: value)
  | escape {c u raw value} (hu : unescape c = some u) (h : Unescapes quote raw value) :
      Unescapes quote ('\\' :: c :: raw) (u :: value)

/-- A language tag behind its sign, if there is one. -/
def tagText : Option String → String
  | some tag => "@" ++ tag
  | none => ""

/-- Whether a slice of text reads as a token. -/
def TokenKind.IsReadOff (slice : String) : TokenKind → Prop
  | .iriRef iri => slice = "<" ++ iri ++ ">"
  | .prefixedName label name => slice = label ++ ":" ++ name
  | .var name => slice = "?" ++ name ∨ slice = "$" ++ name
  | .blankNode label => slice = "_:" ++ label
  | .string value language => ∃ quote raw, (quote = '"' ∨ quote = '\x27') ∧
      Unescapes quote raw value.toList ∧
      slice = String.singleton quote ++ String.ofList raw ++ String.singleton quote ++
        tagText language
  | .integer text => slice = text
  | .decimal text => slice = text
  | .double text => slice = text
  | .word text => slice = text
  | .leftParen => slice = "("
  | .rightParen => slice = ")"
  | .comma => slice = ","
  | .slash => slice = "/"
  | .pipe => slice = "|"
  | .caret => slice = "^"
  | .doubleCaret => slice = "^^"
  | .star => slice = "*"
  | .plus => slice = "+"
  | .minus => slice = "-"
  | .question => slice = "?"
  | .bang => slice = "!"
  | .and => slice = "&&"
  | .or => slice = "||"
  | .eq => slice = "="
  | .notEq => slice = "!="
  | .lt => slice = "<"
  | .ltEq => slice = "<="
  | .gt => slice = ">"
  | .gtEq => slice = ">="

/-- Whether a token reads as what it was read from. -/
def Scanned.IsFaithful (s : Scanned) : Prop := s.kind.IsReadOff (String.ofList s.lexeme)

/-! ## Scanners -/

theorem scanIri_isFaithful {cs : List Char} {s : Scanned} (h : scanIri cs = some s) :
    s.IsFaithful := by
  unfold scanIri at h
  split at h
  · cases h
    show String.ofList _ = _
    rw [String.ofList_cons, String.ofList_append, ← String.append_assoc]
    rfl
  · cases h

theorem scanVariable_isFaithful {sigil : Char} {cs : List Char} {s : Scanned}
    (hsigil : sigil = '?' ∨ sigil = '$') (h : scanVariable sigil cs = some s) : s.IsFaithful := by
  unfold scanVariable at h
  split at h
  · cases h
  · cases h
    obtain rfl | rfl := hsigil
    · exact .inl String.ofList_cons
    · exact .inr String.ofList_cons

theorem scanLocal_isFaithful (label cs : List Char) : (scanLocal label cs).IsFaithful := by
  show String.ofList (label ++ ':' :: _) = _
  rw [String.ofList_append, String.ofList_cons, ← String.append_assoc]
  rfl

theorem scanWord_isFaithful (cs : List Char) : (scanWord cs).IsFaithful := by
  unfold scanWord
  split
  · exact scanLocal_isFaithful _ _
  · rfl

theorem scanLabel_isFaithful {cs : List Char} {s : Scanned} (h : scanLabel cs = .ok s) :
    s.IsFaithful := by
  unfold scanLabel at h
  split at h
  · cases h
  · cases h
    show String.ofList ('_' :: ':' :: _) = _
    rw [String.ofList_cons, String.ofList_cons, ← String.append_assoc]
    rfl

theorem scanSign_isFaithful {c : Char} {cs : List Char} {s : Scanned}
    (h : scanSign c cs = some s) : s.IsFaithful := by
  unfold scanSign at h
  split at h
  · rename_i k hk
    cases h
    obtain ⟨d, hd, hpaired⟩ := Option.bind_eq_some_iff.mp hk
    obtain ⟨tail, rfl⟩ := List.head?_eq_some_iff.mp hd
    unfold paired at hpaired
    split at hpaired <;> cases hpaired <;> rfl
  · obtain ⟨k, hk, rfl⟩ := Option.map_eq_some_iff.mp h
    unfold single at hk
    split at hk <;> cases hk <;> rfl

theorem scanNumber_isFaithful (cs : List Char) : (scanNumber cs).IsFaithful := by
  unfold scanNumber Scanned.IsFaithful
  dsimp only
  split
  · rfl
  · split <;> rfl

theorem unescapes_of_scanBody {quote : Char} {cs : List Char} {body : StringBody}
    (h : scanBody quote cs = .ok body) :
    ∃ raw, Unescapes quote raw body.value ∧ body.lexeme = raw ++ [quote] := by
  fun_induction scanBody quote cs generalizing body with
  | case1 => cases h
  | case2 cs =>
    cases h
    exact ⟨[], .nil, rfl⟩
  | case3 => cases h
  | case4 d ds u hu _ ih =>
    obtain ⟨b, hb, rfl⟩ := prepend_eq_ok h
    obtain ⟨raw, hraw, hlexeme⟩ := ih hb
    exact ⟨_, .escape hu hraw, by simp [hlexeme]⟩
  | case5 => cases h
  | case6 c cs hquote hslash ih =>
    obtain ⟨b, hb, rfl⟩ := prepend_eq_ok h
    obtain ⟨raw, hraw, hlexeme⟩ := ih hb
    exact ⟨_, .plain hquote hslash hraw, by simp [hlexeme]⟩

theorem scanString_isFaithful {quote : Char} {cs : List Char} {s : Scanned}
    (hquote : quote = '"' ∨ quote = '\x27') (h : scanString quote cs = .ok s) :
    s.IsFaithful := by
  unfold scanString at h
  split at h
  · cases h
  · rename_i body hb
    obtain ⟨raw, hraw, hlexeme⟩ := unescapes_of_scanBody hb
    rw [← String.toList_ofList (l := body.value)] at hraw
    dsimp only at h
    split at h
    · split at h
      · cases h
      · cases h
        refine ⟨quote, raw, hquote, hraw, String.toList_inj.mp ?_⟩
        simp [hlexeme, tagText]
    · cases h
      refine ⟨quote, raw, hquote, hraw, String.toList_inj.mp ?_⟩
      simp [hlexeme, tagText]

theorem scanOther_isFaithful {c : Char} {cs : List Char} {s : Scanned}
    (h : scanOther c cs = .ok s) : s.IsFaithful := by
  unfold scanOther at h
  split at h
  · cases h
  · split at h
    · rename_i hquote
      exact scanString_isFaithful (by simpa using hquote) h
    · split at h
      · exact scanLabel_isFaithful h
      · split at h
        · cases h
          exact scanLocal_isFaithful _ _
        · split at h
          · cases h
            exact scanNumber_isFaithful _
          · split at h
            · cases h
              exact scanWord_isFaithful _
            · cases h

/-- A token reads as what it was read from. -/
theorem scan_isFaithful {afterOperand : Bool} {c : Char} {cs : List Char} {s : Scanned}
    (h : scan afterOperand c cs = .ok s) : s.IsFaithful := by
  unfold scan at h
  dsimp only at h
  split at h
  · rename_i t ht
    cases h
    rcases Option.or_eq_some_iff.mp ht with hn | ⟨_, hs⟩
    · split at hn
      · rename_i hsigil
        exact scanVariable_isFaithful (by simpa using hsigil) hn
      · split at hn
        · exact scanIri_isFaithful hn
        · cases hn
    · exact scanSign_isFaithful hs
  · split at h
    · cases h
    · exact scanOther_isFaithful h

/-! ## Complaints -/

theorem prepend_eq_error {read : List Char} {value : Char} {r : Except ScanFault StringBody}
    {e : ScanFault} (h : prepend read value r = .error e) :
    ∃ f, r = .error f ∧ e = ⟨f.complaint, read ++ f.lexeme⟩ := by
  cases r with
  | ok b => cases h
  | error f => exact ⟨f, rfl, (Except.error.inj h).symm⟩

/-- What a complaint is about stands in front of the text. No complaint about characters is that a
prefix is unknown. -/
structure ScanFault.IsAbout (e : ScanFault) (cs : List Char) : Prop where
  stands : e.lexeme <+: cs
  kind_ne : e.complaint.kind ≠ .unknownPrefix

theorem scanBody_isAbout {quote : Char} {cs : List Char} {e : ScanFault}
    (h : scanBody quote cs = .error e) : e.IsAbout cs := by
  fun_induction scanBody quote cs generalizing e with
  | case1 =>
    cases h
    exact ⟨List.prefix_rfl, by decide⟩
  | case2 cs => cases h
  | case3 =>
    cases h
    exact ⟨List.prefix_rfl, by decide⟩
  | case4 d ds u hu _ ih =>
    obtain ⟨f, hf, rfl⟩ := prepend_eq_error h
    exact ⟨List.prefix_append_right_inj _ |>.mpr (ih hf).stands, (ih hf).kind_ne⟩
  | case5 d ds =>
    cases h
    exact ⟨List.prefix_append _ _, fun hkind => by cases hkind⟩
  | case6 c cs hquote hslash ih =>
    obtain ⟨f, hf, rfl⟩ := prepend_eq_error h
    exact ⟨List.prefix_append_right_inj _ |>.mpr (ih hf).stands, (ih hf).kind_ne⟩

theorem scanString_isAbout {quote : Char} {cs : List Char} {e : ScanFault}
    (h : scanString quote cs = .error e) : e.IsAbout (quote :: cs) := by
  unfold scanString at h
  split at h
  · rename_i f hf
    cases h
    have habout := scanBody_isAbout hf
    exact ⟨(List.prefix_cons_inj _).mpr habout.stands, habout.kind_ne⟩
  · rename_i body hb
    have hcs := scanBody_append hb
    dsimp only at h
    split at h
    · rename_i rest hr
      split at h
      · cases h
        refine ⟨(List.prefix_cons_inj _).mpr ?_, nofun⟩
        rw [← hcs, hr]
        refine (List.prefix_append_right_inj _).mpr ((List.prefix_cons_inj _).mpr ?_)
        exact List.takeWhile_prefix _
      · cases h
    · cases h

theorem scanOther_isAbout {c : Char} {cs : List Char} {e : ScanFault}
    (h : scanOther c cs = .error e) : e.IsAbout (c :: cs) := by
  unfold scanOther at h
  split at h
  · cases h
    exact ⟨List.prefix_append [c] cs, nofun⟩
  · split at h
    · exact scanString_isAbout h
    · split at h
      · rename_i hc
        obtain ⟨rfl, hd⟩ : c = '_' ∧ cs.head? = some ':' := by simpa using hc
        obtain ⟨tail, rfl⟩ := List.head?_eq_some_iff.mp hd
        unfold scanLabel at h
        split at h
        · cases h
          exact ⟨List.prefix_append ['_', ':'] tail, nofun⟩
        · cases h
      · split at h
        · cases h
        · split at h
          · cases h
          · split at h
            · cases h
            · cases h
              exact ⟨List.prefix_append [c] cs, nofun⟩

theorem scan_isAbout {afterOperand : Bool} {c : Char} {cs : List Char} {e : ScanFault}
    (h : scan afterOperand c cs = .error e) : e.IsAbout (c :: cs) := by
  unfold scan at h
  dsimp only at h
  split at h
  · cases h
  · split at h
    · cases h
      exact ⟨List.prefix_append [c] cs, nofun⟩
    · exact scanOther_isAbout h

end Shorthand

end GraphPattern
