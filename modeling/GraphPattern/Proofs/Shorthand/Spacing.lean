import GraphPattern.Proofs.Shorthand.Spelling
import GraphPattern.Proofs.Shorthand.Tiling
import Mathlib.Data.List.DropRight
import Mathlib.Data.List.Forall2

/-!
# White space between tokens

A token ends where it does because of the characters that follow it up to the next white space, and
none of them is needed to be there. So a token is read in the same way if what follows it starts like
what followed before, as far as no white space is met (`scan_respaced`). That is so wherever white space
is put between tokens, so the tokens stay the same (`tokenize_respaced`).
-/

namespace GraphPattern.Shorthand

open Text

/-! ## Texts that start alike -/

/-- Whether all that a text starts with, up to white space, is what another one starts with. -/
def StartsLike (ds cs : List Char) : Prop :=
  ∀ w, (∀ c ∈ w, isWhitespace c = false) → w <+: ds → w <+: cs

variable {c : Char} {cs ds rest : List Char}

theorem startsLike_of_space (h : ∀ c ∈ ds.head?, isWhitespace c = true) (cs : List Char) :
    StartsLike ds cs := by
  intro w hw hds
  cases w with
  | nil => exact List.nil_prefix
  | cons d w =>
    obtain ⟨tail, rfl⟩ := hds
    have hspace := h d rfl
    rw [hw d List.mem_cons_self] at hspace
    cases hspace

theorem StartsLike.append (h : StartsLike ds cs) (w : List Char) :
    StartsLike (w ++ ds) (w ++ cs) := by
  intro v hv hds
  rcases List.prefix_or_prefix_of_prefix hds (List.prefix_append w ds) with hvw | ⟨u, rfl⟩
  · exact hvw.trans (List.prefix_append w cs)
  · rw [List.forall_mem_append] at hv
    rw [List.prefix_append_right_inj] at hds ⊢
    exact h u hv.2 hds

theorem StartsLike.head? (h : StartsLike ds cs) (hds : ds.head? = some c)
    (hc : isWhitespace c = false) : cs.head? = some c := by
  obtain ⟨tail, rfl⟩ := List.head?_eq_some_iff.mp hds
  obtain ⟨rest, rfl⟩ := h [c] (by simpa using hc) ⟨tail, rfl⟩
  rfl

section Spans

variable {p : Char → Bool}

theorem StartsLike.head (h : StartsLike ds cs) (hp : ∀ c, p c = true → isWhitespace c = false)
    (hcs : ∀ c ∈ cs.head?, p c = false) : ∀ c ∈ ds.head?, p c = false := by
  intro c hc
  by_contra hpc
  have htrue : p c = true := by simpa using hpc
  exact hpc (hcs c (h.head? hc (hp c htrue)))

theorem head_dropWhile (p : Char → Bool) (cs : List Char) :
    ∀ c ∈ (cs.dropWhile p).head?, p c = false := by
  intro c hc
  have hnot := List.head?_dropWhile_not p cs
  rw [Option.mem_def.mp hc] at hnot
  simpa using hnot

/-- A run of a class of characters ends where it did. -/
theorem StartsLike.takeWhile (h : StartsLike rest (cs.dropWhile p))
    (hp : ∀ c, p c = true → isWhitespace c = false) :
    (cs.takeWhile p ++ rest).takeWhile p = cs.takeWhile p :=
  takeWhile_append_of_head (fun _ hc => List.mem_takeWhile_imp hc)
    (h.head hp (head_dropWhile p cs))

theorem StartsLike.dropWhile (h : StartsLike rest (cs.dropWhile p))
    (hp : ∀ c, p c = true → isWhitespace c = false) :
    (cs.takeWhile p ++ rest).dropWhile p = rest :=
  dropWhile_append_of_head (fun _ hc => List.mem_takeWhile_imp hc)
    (h.head hp (head_dropWhile p cs))

theorem StartsLike.takeWhile_eq_nil (h : StartsLike ds cs)
    (hp : ∀ c, p c = true → isWhitespace c = false) (hcs : cs.takeWhile p = []) :
    ds.takeWhile p = [] := by
  refine takeWhile_eq_nil_of_head (h.head hp ?_)
  have hhead := head_dropWhile p cs
  have hdrop := List.takeWhile_append_dropWhile (p := p) (l := cs)
  rw [hcs, List.nil_append] at hdrop
  rwa [hdrop] at hhead

end Spans

theorem not_isWhitespace_of_isDigit (h : c.isDigit = true) : isWhitespace c = false :=
  not_isWhitespace_of_isNameChar (isNameChar_of_isDigit h)

theorem not_isWhitespace_of_isLocalChar (h : isLocalChar c = true) : isWhitespace c = false :=
  not_isWhitespace_of_isIriChar (isIriChar_of_isLocalChar h)

theorem not_isWhitespace_of_isTagChar (h : isTagChar c = true) : isWhitespace c = false := by
  rw [isTagChar, Bool.or_eq_true, decide_eq_true_eq] at h
  rcases h with h | rfl
  · exact not_isWhitespace_of_isNameChar (isNameChar_of_isAlphanum h)
  · decide

/-! ## Names and signs -/

variable {s : Scanned}

theorem scanIri_respaced (h : scanIri cs = some s) (hds : '<' :: ds = s.lexeme ++ rest) :
    scanIri ds = some { s with rest := rest } := by
  unfold scanIri at h
  split at h
  · cases h
    have hend : ∀ c ∈ ('>' :: rest).head?, isIriChar c = false := by
      rintro c ⟨⟩
      decide
    obtain rfl : ds = cs.takeWhile isIriChar ++ '>' :: rest := by simpa using hds
    have hiri : ∀ c ∈ cs.takeWhile isIriChar, isIriChar c = true := fun _ hc =>
      List.mem_takeWhile_imp hc
    simp only [scanIri, takeWhile_append_of_head hiri hend, dropWhile_append_of_head hiri hend]
  · cases h

/-- Where an IRI is not closed before white space, it is not if there is more white space. -/
theorem StartsLike.scanIri_eq_none (h : StartsLike ds cs) (hcs : scanIri cs = none) :
    scanIri ds = none := by
  rw [Option.eq_none_iff_forall_ne_some]
  intro s hs
  unfold scanIri at hs
  split at hs
  · rename_i tail htail
    have hsplit := List.takeWhile_append_dropWhile (p := isIriChar) (l := ds)
    have hiri : ∀ c ∈ ds.takeWhile isIriChar, isIriChar c = true := fun _ hc =>
      List.mem_takeWhile_imp hc
    rw [htail] at hsplit
    obtain ⟨more, hmore⟩ := h (ds.takeWhile isIriChar ++ ['>'])
      (List.forall_mem_append.mpr
        ⟨fun c hc => not_isWhitespace_of_isIriChar (hiri c hc),
          List.forall_mem_singleton.mpr (by decide)⟩)
      ⟨tail, by simpa using hsplit⟩
    have hend : ∀ c ∈ ('>' :: more).head?, isIriChar c = false := by
      rintro c ⟨⟩
      decide
    rw [← hmore, List.append_assoc, List.singleton_append, scanIri,
      dropWhile_append_of_head hiri hend] at hcs
    cases hcs
  · cases hs

theorem scanVariable_respaced {sigil : Char} (h : scanVariable sigil cs = some s)
    (hrest : StartsLike rest s.rest) (hds : sigil :: ds = s.lexeme ++ rest) :
    scanVariable sigil ds = some { s with rest := rest } := by
  unfold scanVariable at h
  split at h
  · cases h
  · rename_i hne
    cases h
    obtain rfl : ds = cs.takeWhile isNameChar ++ rest := by simpa using hds
    rw [scanVariable, hrest.takeWhile fun _ => not_isWhitespace_of_isNameChar,
      hrest.dropWhile fun _ => not_isWhitespace_of_isNameChar]
    split
    · rename_i hnil
      exact absurd hnil hne
    · rfl

theorem StartsLike.scanVariable_eq_none (h : StartsLike ds cs) {sigil : Char}
    (hcs : scanVariable sigil cs = none) : scanVariable sigil ds = none := by
  unfold scanVariable at hcs
  split at hcs
  · rename_i hnil
    rw [scanVariable, h.takeWhile_eq_nil (fun _ => not_isWhitespace_of_isNameChar) hnil]
  · cases hcs

theorem scanLabel_respaced (h : scanLabel cs = .ok s) (hrest : StartsLike rest s.rest)
    (hds : '_' :: ':' :: ds = s.lexeme ++ rest) :
    scanLabel ds = .ok { s with rest := rest } := by
  unfold scanLabel at h
  split at h
  · cases h
  · rename_i hne
    cases h
    obtain rfl : ds = cs.takeWhile isNameChar ++ rest := by simpa using hds
    rw [scanLabel, hrest.takeWhile fun _ => not_isWhitespace_of_isNameChar,
      hrest.dropWhile fun _ => not_isWhitespace_of_isNameChar]
    split
    · rename_i hnil
      exact absurd hnil hne
    · rfl

theorem not_isWhitespace_of_paired {d : Char} {k : TokenKind} (h : paired c d = some k) :
    isWhitespace d = false := by
  unfold paired at h
  split at h <;> first | decide | cases h

/-- Signs of one character form no pair with what follows white space. -/
theorem StartsLike.bind_paired_eq_none (h : StartsLike ds cs)
    (hcs : cs.head?.bind (paired c) = none) : ds.head?.bind (paired c) = none := by
  rw [Option.eq_none_iff_forall_ne_some]
  intro k hk
  obtain ⟨d, hd, hpaired⟩ := Option.bind_eq_some_iff.mp hk
  rw [h.head? hd (not_isWhitespace_of_paired hpaired), Option.bind_some, hpaired] at hcs
  cases hcs

theorem scanSign_respaced (h : scanSign c cs = some s) (hrest : StartsLike rest s.rest)
    (hds : c :: ds = s.lexeme ++ rest) : scanSign c ds = some { s with rest := rest } := by
  unfold scanSign at h
  split at h
  · rename_i k hk
    cases h
    obtain ⟨d, hd, hpaired⟩ := Option.bind_eq_some_iff.mp hk
    obtain ⟨tail, rfl⟩ := List.head?_eq_some_iff.mp hd
    obtain rfl : ds = d :: rest := by simpa using hds
    simp [scanSign, hpaired]
  · rename_i hnone
    obtain ⟨k, hk, rfl⟩ := Option.map_eq_some_iff.mp h
    obtain rfl : ds = rest := by simpa using hds
    rw [scanSign, hrest.bind_paired_eq_none hnone, hk]
    rfl

theorem StartsLike.scanSign_eq_none (h : StartsLike ds cs) (hcs : scanSign c cs = none) :
    scanSign c ds = none := by
  unfold scanSign at hcs
  split at hcs
  · cases hcs
  · rename_i hnone
    rw [Option.map_eq_none_iff] at hcs
    simp only [scanSign, h.bind_paired_eq_none hnone, hcs, Option.map_none]

/-! ## Words and local names -/

theorem exists_dots (cs : List Char) :
    ∃ dots, trimDots cs ++ dots = cs ∧ ∀ c ∈ dots, c = '.' := by
  refine ⟨(cs.reverse.takeWhile (· = '.')).reverse, ?_, fun c hc => ?_⟩
  · rw [trimDots, ← List.reverse_append, List.takeWhile_append_dropWhile, List.reverse_reverse]
  · simpa using List.mem_takeWhile_imp (List.mem_reverse.mp hc)

theorem trimDots_append_dots {dots : List Char} (h : ∀ c ∈ dots, c = '.') (cs : List Char) :
    trimDots (cs ++ dots) = trimDots cs := by
  rw [trimDots, List.reverse_append, List.dropWhile_append_of_pos, trimDots]
  intro c hc
  simpa using h c (List.mem_reverse.mp hc)

theorem trimDots_trimDots (cs : List Char) : trimDots (trimDots cs) = trimDots cs :=
  List.rdropWhile_idempotent _ _

theorem scanLocal_respaced {label : List Char} (hrest : StartsLike rest (scanLocal label cs).rest)
    (hds : label ++ ':' :: ds = (scanLocal label cs).lexeme ++ rest) :
    scanLocal label ds = { scanLocal label cs with rest := rest } := by
  obtain ⟨dots, hdots, hall⟩ := exists_dots (cs.takeWhile isLocalChar)
  have hcs := List.takeWhile_append_dropWhile (p := isLocalChar) (l := cs)
  have hlocal : ∀ c ∈ trimDots (cs.takeWhile isLocalChar) ++ dots, isLocalChar c = true := by
    rw [hdots]
    exact fun _ hc => List.mem_takeWhile_imp hc
  have hend := head_dropWhile isLocalChar cs
  simp only [scanLocal] at hrest hds ⊢
  have htrim := trimDots_trimDots (cs.takeWhile isLocalChar)
  rw [← hdots] at hcs
  generalize trimDots (cs.takeWhile isLocalChar) = name at *
  rw [List.forall_mem_append] at hlocal
  obtain rfl : ds = name ++ rest := by simpa using hds
  rw [← hcs, List.append_assoc, List.drop_left] at hrest
  -- what of the new rest could belong to the name is dots, as in the old one
  have hmore : ∀ c ∈ rest.takeWhile isLocalChar, c = '.' := by
    have hmem : ∀ c ∈ rest.takeWhile isLocalChar, isLocalChar c = true := fun _ hc =>
      List.mem_takeWhile_imp hc
    obtain ⟨more, hsplit⟩ := hrest (rest.takeWhile isLocalChar)
      (fun c hc => not_isWhitespace_of_isLocalChar (hmem c hc)) (List.takeWhile_prefix _)
    have htake := congrArg (List.takeWhile isLocalChar) hsplit
    rw [List.takeWhile_append_of_pos hmem, takeWhile_append_of_head hlocal.2 hend] at htake
    exact fun c hc => hall c (htake ▸ List.mem_append_left _ hc)
  rw [List.takeWhile_append_of_pos hlocal.1, trimDots_append_dots hmore, htrim, List.drop_left]

theorem scanWord_of_colon {tail : List Char} (h : cs.dropWhile isNameChar = ':' :: tail) :
    scanWord cs = scanLocal (cs.takeWhile isNameChar) tail := by
  simp only [scanWord, h]

theorem scanWord_of_head (h : (cs.dropWhile isNameChar).head? ≠ some ':') :
    scanWord cs = ⟨.word (String.ofList (cs.takeWhile isNameChar)), cs.takeWhile isNameChar,
      cs.dropWhile isNameChar⟩ := by
  unfold scanWord
  split
  · rename_i tail htail
    rw [htail] at h
    exact absurd rfl h
  · rfl

theorem scanWord_respaced (hrest : StartsLike rest (scanWord cs).rest) :
    scanWord ((scanWord cs).lexeme ++ rest) = { scanWord cs with rest := rest } := by
  by_cases hcolon : (cs.dropWhile isNameChar).head? = some ':'
  · obtain ⟨tail, htail⟩ := List.head?_eq_some_iff.mp hcolon
    rw [scanWord_of_colon htail] at hrest ⊢
    have hname : ∀ c ∈ cs.takeWhile isNameChar, isNameChar c = true := fun _ hc =>
      List.mem_takeWhile_imp hc
    obtain ⟨name, hname'⟩ : ∃ name, (scanLocal (cs.takeWhile isNameChar) tail).lexeme =
      cs.takeWhile isNameChar ++ ':' :: name := ⟨_, rfl⟩
    have hend : ∀ c ∈ (':' :: (name ++ rest)).head?, isNameChar c = false := by
      rintro c ⟨⟩
      decide
    have hlocal : scanLocal _ (name ++ rest) = _ :=
      scanLocal_respaced hrest (by simp [hname'])
    rw [hname', List.append_assoc, List.cons_append,
      scanWord_of_colon (dropWhile_append_of_head hname hend), takeWhile_append_of_head hname hend,
      hlocal]
  · rw [scanWord_of_head hcolon] at hrest ⊢
    have hname : ∀ c, isNameChar c = true → isWhitespace c = false := fun _ =>
      not_isWhitespace_of_isNameChar
    have hhead : rest.head? ≠ some ':' := fun h => hcolon (hrest.head? h (by decide))
    dsimp only at hrest ⊢
    rw [scanWord_of_head (by rwa [hrest.dropWhile hname]), hrest.takeWhile hname,
      hrest.dropWhile hname]

/-! ## Numbers -/

theorem takeWhile_digits {d : Char} (hd : d.isDigit = true) (cs : List Char) :
    (d :: cs).takeWhile Char.isDigit = d :: cs.takeWhile Char.isDigit :=
  List.takeWhile_cons_of_pos hd

theorem takeWhile_digits_ne_nil (h : cs.takeWhile Char.isDigit ≠ []) :
    ∃ d tail, cs = d :: tail ∧ d.isDigit = true := by
  cases cs with
  | nil => exact absurd rfl h
  | cons d tail =>
    refine ⟨d, tail, rfl, ?_⟩
    by_contra hd
    exact h (List.takeWhile_cons_of_neg hd)

theorem splitFraction_of_isDigit {d : Char} (hd : d.isDigit = true) (cs : List Char) :
    splitFraction ('.' :: d :: cs) =
      ('.' :: (d :: cs).takeWhile Char.isDigit, (d :: cs).dropWhile Char.isDigit) := by
  rw [splitFraction, takeWhile_digits hd]

/-- A fraction starts with a point and a digit, and wherever they stand there is one. -/
theorem splitFraction_fst_ne_nil_iff :
    (splitFraction cs).1 ≠ [] ↔ ∃ d, d.isDigit = true ∧ ['.', d] <+: cs := by
  constructor
  · intro h
    unfold splitFraction at h
    split at h
    · split at h
      · exact absurd rfl h
      · rename_i tail _ hne
        obtain ⟨d, more, rfl, hd⟩ := takeWhile_digits_ne_nil hne
        exact ⟨d, hd, more, rfl⟩
    · exact absurd rfl h
  · rintro ⟨d, hd, more, rfl⟩
    rw [List.cons_append, List.singleton_append, splitFraction_of_isDigit hd]
    exact List.cons_ne_nil _ _

theorem splitFraction_respaced (hrest : StartsLike rest (splitFraction cs).2) :
    splitFraction ((splitFraction cs).1 ++ rest) = ((splitFraction cs).1, rest) := by
  have hnone : ∀ {cs}, (splitFraction cs).1 = [] → splitFraction cs = ([], cs) := by
    intro cs h
    have happend := splitFraction_append cs
    rw [h, List.nil_append] at happend
    exact Prod.ext h happend
  by_cases hnil : (splitFraction cs).1 = []
  · rw [hnone hnil] at hrest ⊢
    refine hnone ?_
    by_contra hne
    obtain ⟨d, hd, hprefix⟩ := splitFraction_fst_ne_nil_iff.mp hne
    refine splitFraction_fst_ne_nil_iff.mpr ⟨d, hd, hrest ['.', d] ?_ hprefix⟩ hnil
    simpa using ⟨by decide, not_isWhitespace_of_isDigit hd⟩
  · obtain ⟨d, hd, tail, rfl⟩ := splitFraction_fst_ne_nil_iff.mp hnil
    rw [List.cons_append, List.singleton_append, splitFraction_of_isDigit hd] at hrest ⊢
    have htake := hrest.takeWhile fun _ => not_isWhitespace_of_isDigit
    have hdrop := hrest.dropWhile fun _ => not_isWhitespace_of_isDigit
    rw [takeWhile_digits hd, List.cons_append] at htake hdrop
    rw [takeWhile_digits hd, List.cons_append, List.cons_append, splitFraction_of_isDigit hd, htake,
      hdrop]

theorem isSign_splitSign (cs : List Char) : IsSign (splitSign cs).1 := by
  unfold splitSign
  split
  · exact .inr (.inl rfl)
  · exact .inr (.inr rfl)
  · exact .inl rfl

theorem splitExponent_of_isDigit {mark d : Char} {sign : List Char}
    (hmark : isExponentMark mark = true) (hsign : IsSign sign) (hd : d.isDigit = true)
    (cs : List Char) :
    splitExponent (mark :: (sign ++ d :: cs)) =
      (mark :: (sign ++ (d :: cs).takeWhile Char.isDigit), (d :: cs).dropWhile Char.isDigit) := by
  rw [splitExponent, if_pos hmark, splitSign_of_isDigit hsign hd, takeWhile_digits hd]

/-- An exponent starts with its letter, maybe a sign, and a digit, and wherever they stand there is
one. -/
theorem splitExponent_fst_ne_nil_iff :
    (splitExponent cs).1 ≠ [] ↔ ∃ mark sign d, isExponentMark mark = true ∧ IsSign sign ∧
      d.isDigit = true ∧ mark :: (sign ++ [d]) <+: cs := by
  constructor
  · intro h
    cases cs with
    | nil => exact absurd rfl h
    | cons mark cs =>
      rw [splitExponent] at h
      split at h
      · rename_i hmark
        split at h
        · exact absurd rfl h
        · rename_i hne
          obtain ⟨d, more, hmore, hd⟩ := takeWhile_digits_ne_nil hne
          refine ⟨mark, (splitSign cs).1, d, hmark, isSign_splitSign cs, hd, more, ?_⟩
          rw [List.cons_append, List.append_assoc, List.singleton_append, ← hmore,
            splitSign_append]
      · exact absurd rfl h
  · rintro ⟨mark, sign, d, hmark, hsign, hd, more, rfl⟩
    rw [List.cons_append, List.append_assoc, List.singleton_append,
      splitExponent_of_isDigit hmark hsign hd]
    exact List.cons_ne_nil _ _

theorem not_isWhitespace_of_isExponentMark (h : isExponentMark c = true) :
    isWhitespace c = false := by
  simp only [isExponentMark, Bool.or_eq_true, decide_eq_true_eq] at h
  rcases h with rfl | rfl <;> decide

theorem IsSign.not_isWhitespace {sign : List Char} (h : IsSign sign) :
    ∀ c ∈ sign, isWhitespace c = false := by
  rcases h with rfl | rfl | rfl
  · exact nofun
  · exact List.forall_mem_singleton.mpr (by decide)
  · exact List.forall_mem_singleton.mpr (by decide)

theorem splitExponent_respaced (hrest : StartsLike rest (splitExponent cs).2) :
    splitExponent ((splitExponent cs).1 ++ rest) = ((splitExponent cs).1, rest) := by
  have hnone : ∀ {cs}, (splitExponent cs).1 = [] → splitExponent cs = ([], cs) := by
    intro cs h
    have happend := splitExponent_append cs
    rw [h, List.nil_append] at happend
    exact Prod.ext h happend
  by_cases hnil : (splitExponent cs).1 = []
  · rw [hnone hnil] at hrest ⊢
    refine hnone ?_
    by_contra hne
    obtain ⟨mark, sign, d, hmark, hsign, hd, hprefix⟩ := splitExponent_fst_ne_nil_iff.mp hne
    refine splitExponent_fst_ne_nil_iff.mpr
      ⟨mark, sign, d, hmark, hsign, hd, hrest _ ?_ hprefix⟩ hnil
    rw [List.forall_mem_cons, List.forall_mem_append, List.forall_mem_singleton]
    exact ⟨not_isWhitespace_of_isExponentMark hmark, hsign.not_isWhitespace,
      not_isWhitespace_of_isDigit hd⟩
  · obtain ⟨mark, sign, d, hmark, hsign, hd, tail, rfl⟩ := splitExponent_fst_ne_nil_iff.mp hnil
    rw [List.cons_append, List.append_assoc, List.singleton_append,
      splitExponent_of_isDigit hmark hsign hd] at hrest ⊢
    have htake := hrest.takeWhile fun _ => not_isWhitespace_of_isDigit
    have hdrop := hrest.dropWhile fun _ => not_isWhitespace_of_isDigit
    rw [takeWhile_digits hd, List.cons_append] at htake hdrop
    rw [takeWhile_digits hd, List.cons_append, List.append_assoc, List.cons_append,
      splitExponent_of_isDigit hmark hsign hd, htake, hdrop]

theorem scanNumber_eq (cs : List Char) :
    let whole := cs.takeWhile Char.isDigit
    let fraction := splitFraction (cs.dropWhile Char.isDigit)
    let exponent := splitExponent fraction.2
    scanNumber cs = ⟨numberKind fraction.1 exponent.1
      (String.ofList (whole ++ fraction.1 ++ exponent.1)), whole ++ fraction.1 ++ exponent.1,
      exponent.2⟩ :=
  rfl

theorem scanNumber_respaced (hrest : StartsLike rest (scanNumber cs).rest) :
    scanNumber ((scanNumber cs).lexeme ++ rest) = { scanNumber cs with rest := rest } := by
  simp only [scanNumber_eq] at hrest ⊢
  have hexponent := splitExponent_respaced hrest
  have hafter := hrest.append (splitExponent (splitFraction (cs.dropWhile Char.isDigit)).2).1
  rw [splitExponent_append] at hafter
  have hfraction := splitFraction_respaced hafter
  have hwhole := hafter.append (splitFraction (cs.dropWhile Char.isDigit)).1
  rw [splitFraction_append] at hwhole
  have htake := hwhole.takeWhile fun _ => not_isWhitespace_of_isDigit
  have hdrop := hwhole.dropWhile fun _ => not_isWhitespace_of_isDigit
  rw [← List.append_assoc, ← List.append_assoc] at htake hdrop
  simp only [htake, hdrop, hfraction, hexponent]

/-! ## Strings -/

theorem scanBody_respaced {quote : Char} {body : StringBody} (h : scanBody quote cs = .ok body)
    (rest : List Char) :
    scanBody quote (body.lexeme ++ rest) = .ok { body with rest := rest } := by
  fun_induction scanBody quote cs generalizing body with
  | case1 => cases h
  | case2 cs =>
    cases h
    exact scanBody_cons_quote quote rest
  | case3 => cases h
  | case4 d ds u hu hquote ih =>
    obtain ⟨b, hb, rfl⟩ := prepend_eq_ok h
    exact scanBody_cons_escape hquote hu (ih hb)
  | case5 => cases h
  | case6 c cs hquote hslash ih =>
    obtain ⟨b, hb, rfl⟩ := prepend_eq_ok h
    exact scanBody_cons_plain hquote hslash (ih hb)

theorem scanString_respaced {quote : Char} (h : scanString quote cs = .ok s)
    (hrest : StartsLike rest s.rest) (hds : quote :: ds = s.lexeme ++ rest) :
    scanString quote ds = .ok { s with rest := rest } := by
  unfold scanString at h
  split at h
  · cases h
  · rename_i body hbody
    dsimp only at h
    split at h
    · rename_i tail hat
      split at h
      · cases h
      · rename_i htag
        cases h
        obtain rfl : ds = body.lexeme ++ '@' :: (tail.takeWhile isTagChar ++ rest) := by
          simpa using hds
        have htake := hrest.takeWhile fun _ => not_isWhitespace_of_isTagChar
        have hdrop := hrest.dropWhile fun _ => not_isWhitespace_of_isTagChar
        simp only [scanString, scanBody_respaced hbody, htake, hdrop, if_neg htag]
    · rename_i hat
      cases h
      obtain rfl : ds = body.lexeme ++ rest := by simpa using hds
      simp only [scanString, scanBody_respaced hbody]
      split
      · rename_i tail
        obtain ⟨more, hmore⟩ := List.head?_eq_some_iff.mp (hrest.head? rfl (by decide))
        exact absurd hmore (hat more)
      · rfl

/-! ## Tokens -/

theorem scanOther_respaced (h : scanOther c cs = .ok s) (hlike : StartsLike ds cs)
    (hrest : StartsLike rest s.rest) (hds : c :: ds = s.lexeme ++ rest) :
    scanOther c ds = .ok { s with rest := rest } := by
  unfold scanOther at h ⊢
  split at h
  · cases h
  rename_i hand
  rw [if_neg hand]
  split at h
  · rename_i hquote
    rw [if_pos hquote]
    exact scanString_respaced h hrest hds
  rename_i hquote
  rw [if_neg hquote]
  split at h
  · rename_i hlabel
    obtain ⟨rfl, hcolon⟩ : c = '_' ∧ cs.head? = some ':' := by simpa using hlabel
    obtain ⟨label, hlexeme⟩ : ∃ label, s.lexeme = '_' :: ':' :: label := by
      unfold scanLabel at h
      split at h
      · cases h
      · cases h
        exact ⟨_, rfl⟩
    obtain rfl : ds = ':' :: (label ++ rest) := by simpa [hlexeme] using hds
    exact scanLabel_respaced h hrest hds
  rename_i hlabel
  have hlabel' : ¬(c = '_' && ds.head? = some ':') = true := by
    simp only [Bool.and_eq_true, decide_eq_true_eq, not_and] at hlabel ⊢
    exact fun hc hhead => hlabel hc (hlike.head? hhead (by decide))
  rw [if_neg hlabel']
  split at h
  · rename_i hcolon
    cases h
    obtain rfl : c = ':' := hcolon
    rw [if_pos rfl, scanLocal_respaced hrest hds]
  rename_i hcolon
  rw [if_neg hcolon]
  split at h
  · rename_i hdigit
    cases h
    rw [if_pos hdigit, hds, scanNumber_respaced hrest]
  rename_i hdigit
  rw [if_neg hdigit]
  split at h
  · rename_i hname
    cases h
    rw [if_pos hname, hds, scanWord_respaced hrest]
  · cases h

/-- The variable or the IRI in front of a text. -/
def scanName (afterOperand : Bool) (c : Char) (cs : List Char) : Option Scanned :=
  if c = '?' || c = '$' then scanVariable c cs
  else if c = '<' && !afterOperand then scanIri cs
  else none

variable {afterOperand : Bool}

theorem scanName_respaced (h : scanName afterOperand c cs = some s)
    (hrest : StartsLike rest s.rest) (hds : c :: ds = s.lexeme ++ rest) :
    scanName afterOperand c ds = some { s with rest := rest } := by
  unfold scanName at h ⊢
  split at h
  · rename_i hsigil
    rw [if_pos hsigil]
    exact scanVariable_respaced h hrest hds
  rename_i hsigil
  rw [if_neg hsigil]
  split at h
  · rename_i hlt
    obtain ⟨rfl, _⟩ : c = '<' ∧ afterOperand = false := by simpa using hlt
    rw [if_pos hlt]
    exact scanIri_respaced h hds
  · cases h

theorem StartsLike.scanName_eq_none (h : StartsLike ds cs)
    (hcs : scanName afterOperand c cs = none) : scanName afterOperand c ds = none := by
  unfold scanName at hcs ⊢
  split at hcs
  · rename_i hsigil
    rw [if_pos hsigil, h.scanVariable_eq_none hcs]
  rename_i hsigil
  rw [if_neg hsigil]
  split at hcs
  · rename_i hlt
    rw [if_pos hlt, h.scanIri_eq_none hcs]
  · rename_i hlt
    rw [if_neg hlt]

theorem scan_eq (afterOperand : Bool) (c : Char) (cs : List Char) :
    scan afterOperand c cs =
      match (scanName afterOperand c cs).or (scanSign c cs) with
      | some s => .ok s
      | none => if c = '$' then .error ⟨.namelessDollar, [c]⟩ else scanOther c cs :=
  rfl

/-- A token is read in the same way if what follows it starts like what followed. -/
theorem scan_respaced (h : scan afterOperand c cs = .ok s) (hrest : StartsLike rest s.rest)
    (hds : c :: ds = s.lexeme ++ rest) :
    scan afterOperand c ds = .ok { s with rest := rest } := by
  have hlike : StartsLike ds cs := by
    have hcs := lexeme_append_rest h
    cases hw : s.lexeme with
    | nil => exact absurd hw (lexeme_ne_nil h)
    | cons d w =>
      rw [hw] at hds hcs
      cases hds
      cases hcs
      exact hrest.append w
  rw [scan_eq] at h ⊢
  cases hname : scanName afterOperand c cs with
  | some t =>
    rw [hname, Option.some_or] at h
    cases h
    rw [scanName_respaced hname hrest hds, Option.some_or]
  | none =>
    rw [hname, Option.none_or] at h
    rw [hlike.scanName_eq_none hname, Option.none_or]
    cases hsign : scanSign c cs with
    | some t =>
      rw [hsign] at h
      cases h
      rw [scanSign_respaced hsign hrest hds]
    | none =>
      rw [hsign] at h
      rw [hlike.scanSign_eq_none hsign]
      dsimp only at h ⊢
      split at h
      · cases h
      · rename_i hdollar
        rw [if_neg hdollar, scanOther_respaced h hlike hrest hds]

/-! ## Texts -/

/-- A text with gaps before, between and after its parts. -/
def weave : List (List Char) → List (List Char) → List Char
  | gap :: gaps, part :: parts => gap ++ part ++ weave gaps parts
  | gaps, _ => gaps.flatten

/-- Whether white space is put into a gap. -/
def IsWidened (gap space : List Char) : Prop :=
  gap.Sublist space ∧ ∀ c ∈ space, isWhitespace c = true

/-- Whether gaps and parts are those that a text is cut into, and forms those of the parts. -/
inductive Cut : Bool → List Char → List (List Char) → List (List Char) → List TokenKind → Prop where
  | nil {afterOperand gap} : Cut afterOperand gap [gap] [] []
  | cons {afterOperand gap c cs s gaps parts ks} (hc : isWhitespace c = false)
      (hs : scan afterOperand c cs = .ok s) (h : Cut s.kind.endsOperand s.rest gaps parts ks) :
      Cut afterOperand (gap ++ c :: cs) (gap :: gaps) (s.lexeme :: parts) (s.kind :: ks)

namespace Cut

variable {gapTexts parts : List (List Char)} {ks : List TokenKind}

theorem weave_eq (h : Cut afterOperand cs gapTexts parts ks) : weave gapTexts parts = cs := by
  induction h with
  | nil => simp [weave]
  | cons _ hs _ ih => rw [weave, ih, List.append_assoc, lexeme_append_rest hs]

theorem kinds_append_of_isWhitespace {space : List Char} (h : ∀ c ∈ space, isWhitespace c = true)
    (afterOperand : Bool) (cs : List Char) :
    kinds afterOperand (space ++ cs) = kinds afterOperand cs := by
  induction space with
  | nil => rfl
  | cons c space ih =>
    rw [List.forall_mem_cons] at h
    rw [List.cons_append, kinds_cons_of_isWhitespace h.1, ih h.2]

/-- With wider gaps the text starts like it did, and its tokens are the same. -/
theorem kinds_weave (h : Cut afterOperand cs gapTexts parts ks) {wider : List (List Char)}
    (hwider : List.Forall₂ IsWidened gapTexts wider) :
    StartsLike (weave wider parts) cs ∧ kinds afterOperand (weave wider parts) = some ks := by
  induction h generalizing wider with
  | @nil afterOperand gap =>
    obtain ⟨space, _, ⟨_, hspace⟩, hnil, rfl⟩ := List.forall₂_cons_left_iff.mp hwider
    obtain rfl := List.forall₂_nil_left_iff.mp hnil
    have hweave : weave [space] [] = space := by simp [weave]
    rw [hweave]
    refine ⟨startsLike_of_space (fun c hc => hspace c (List.mem_of_mem_head? hc)) gap, ?_⟩
    rw [← List.append_nil space, kinds_append_of_isWhitespace hspace, kinds_nil]
  | @cons afterOperand gap c cs s gaps parts ks hc hs _ ih =>
    obtain ⟨space, wider, ⟨hsub, hspace⟩, hgaps, rfl⟩ := List.forall₂_cons_left_iff.mp hwider
    obtain ⟨hlike, hkinds⟩ := ih hgaps
    have hcs := lexeme_append_rest hs
    rw [weave, List.append_assoc]
    generalize weave wider parts = rest at hlike hkinds
    constructor
    · cases space with
      | nil =>
        obtain rfl := List.sublist_nil.mp hsub
        rw [← hcs]
        exact hlike.append s.lexeme
      | cons d space =>
        refine startsLike_of_space ?_ _
        rintro _ ⟨⟩
        exact hspace d List.mem_cons_self
    · obtain ⟨w, hw⟩ : ∃ w, s.lexeme = c :: w := by
        cases hw : s.lexeme with
        | nil => exact absurd hw (lexeme_ne_nil hs)
        | cons d w =>
          rw [hw] at hcs
          cases hcs
          exact ⟨w, rfl⟩
      have hscan : scan afterOperand c (w ++ rest) = _ :=
        scan_respaced hs hlike (by rw [hw, List.cons_append])
      rw [kinds_append_of_isWhitespace hspace, hw, List.cons_append,
        kinds_cons_of_scan hc hscan, hkinds]
      rfl

end Cut

/-- A text that tokens are read of is cut into what the tokens and the spans between them cover. -/
theorem exists_cut_of_tokenizeFrom {limit : Nat} {before : List Char} {ts : Tokens}
    (hlimit : cs.length ≤ limit)
    (h : tokenizeFrom limit afterOperand (byteSize before) cs = .ok ts) :
    ∃ gapTexts parts, Cut afterOperand cs gapTexts parts (ts.items.map Token.kind) ∧
      List.Forall₂ (fun gap text => gap.Covers (before ++ cs) text)
        (gaps (byteSize before) ts.items ts.finish) gapTexts ∧
      List.Forall₂ (fun t part => t.span.Covers (before ++ cs) part) ts.items parts := by
  induction limit generalizing afterOperand before cs ts with
  | zero =>
    obtain rfl := List.length_eq_zero_iff.mp (Nat.le_zero.mp hlimit)
    cases h
    exact ⟨_, _, .nil, .cons ⟨before, [], by simp, rfl⟩ .nil, .nil⟩
  | succ limit ih =>
    obtain ⟨_, rfl⟩ | ⟨gap, c, rest, s, us, _, hc, rfl, hs, hus, rfl⟩ := tokenizeFrom_succ_eq_ok h
    · exact ⟨_, _, .nil, .cons ⟨before, [], by simp, by simp⟩ .nil, .nil⟩
    · have hlt := length_rest_lt hs
      rw [List.length_append] at hlimit
      obtain ⟨gapTexts, parts, hcut, hgaps, hparts⟩ := ih (by omega) hus
      have htext : before ++ (gap ++ c :: rest) = before ++ gap ++ s.lexeme ++ s.rest := by
        rw [List.append_assoc (before ++ gap), lexeme_append_rest hs, List.append_assoc]
      rw [← htext] at hgaps hparts
      refine ⟨gap :: gapTexts, s.lexeme :: parts, .cons hc hs hcut, .cons ?_ hgaps,
        .cons ?_ hparts⟩
      · exact ⟨before, c :: rest, by simp, by simp⟩
      · exact ⟨before ++ gap, s.rest, htext, by simp [Nat.add_assoc]⟩

/-- A text is its tokens with the white space before, between and after them. Where more white space
is put into any of these places, also between tokens that touch, the text has the same tokens. -/
theorem tokenize_respaced {s : String} {ts : Tokens} (h : tokenize s.toList = .ok ts) :
    let parts := ts.items.map fun t => (t.span.slice s).toList
    let spaces := (gaps 0 ts.items ts.finish).map fun gap => (gap.slice s).toList
    weave spaces parts = s.toList ∧
      ∀ wider, List.Forall₂ IsWidened spaces wider →
        ∃ us, tokenize (weave wider parts) = .ok us ∧
          us.items.map Token.kind = ts.items.map Token.kind := by
  have hcut : tokenizeFrom _ _ (byteSize []) s.toList = .ok ts := h
  obtain ⟨gapTexts, parts, hcut, hgaps, hparts⟩ := exists_cut_of_tokenizeFrom (Nat.le_refl _) hcut
  have hslice : ∀ {span : Span} {part}, span.Covers ([] ++ s.toList) part →
      (span.slice s).toList = part := fun hcovers => by
    rw [hcovers.slice_eq, String.toList_ofList]
  have hspaces : (gaps 0 ts.items ts.finish).map (fun gap => (gap.slice s).toList) = gapTexts := by
    rw [← List.forall₂_eq_eq_eq, List.forall₂_map_left_iff]
    exact hgaps.imp fun _ _ => hslice
  have htokens : ts.items.map (fun t => (t.span.slice s).toList) = parts := by
    rw [← List.forall₂_eq_eq_eq, List.forall₂_map_left_iff]
    exact hparts.imp fun _ _ => hslice
  dsimp only
  rw [hspaces, htokens]
  exact ⟨hcut.weave_eq, fun wider hwider => tokenize_of_kinds (hcut.kinds_weave hwider).2⟩

theorem tokenize_respaced_touching :
    ∃ ts us, tokenize "1e+<x>?a<b:c ".toList = .ok ts ∧
      tokenize "\t1 e+ <x> ?a <\nb:c  ".toList = .ok us ∧
      us.items.map Token.kind = ts.items.map Token.kind := by
  let ts : Tokens := ⟨[⟨.integer "1", ⟨0, 1⟩⟩, ⟨.word "e", ⟨1, 2⟩⟩, ⟨.plus, ⟨2, 3⟩⟩,
    ⟨.iriRef "x", ⟨3, 6⟩⟩, ⟨.var "a", ⟨6, 8⟩⟩, ⟨.lt, ⟨8, 9⟩⟩,
    ⟨.prefixedName "b" "c", ⟨9, 12⟩⟩], 13⟩
  have h : tokenize "1e+<x>?a<b:c ".toList = .ok ts := by decide +kernel
  have hspaces : (gaps 0 ts.items ts.finish).map
      (fun gap => (gap.slice "1e+<x>?a<b:c ").toList) = [[], [], [], [], [], [], [], [' ']] := by
    decide +kernel
  have hparts : ts.items.map (fun t => (t.span.slice "1e+<x>?a<b:c ").toList) =
      [['1'], ['e'], ['+'], ['<', 'x', '>'], ['?', 'a'], ['<'], ['b', ':', 'c']] := by
    decide +kernel
  obtain ⟨-, hwide⟩ := tokenize_respaced h
  rw [hspaces, hparts] at hwide
  have hspace : isWhitespace ' ' = true := by decide
  have hnone : IsWidened [] [] := ⟨.slnil, nofun⟩
  have hone : ∀ c, isWhitespace c = true → IsWidened [] [c] := fun c hc =>
    ⟨List.nil_sublist [c], List.forall_mem_singleton.mpr hc⟩
  have htwo : IsWidened [' '] [' ', ' '] :=
    ⟨List.sublist_cons_self ' ' [' '], List.forall_mem_cons.mpr ⟨hspace,
      List.forall_mem_singleton.mpr hspace⟩⟩
  obtain ⟨us, hus, hkinds⟩ := hwide
    [['\t'], [' '], [], [' '], [' '], [' '], ['\n'], [' ', ' ']]
    (.cons (hone _ (by decide)) <| .cons (hone _ hspace) <| .cons hnone <|
      .cons (hone _ hspace) <| .cons (hone _ hspace) <| .cons (hone _ hspace) <|
      .cons (hone _ (by decide)) <| .cons htwo .nil)
  exact ⟨ts, us, h, hus, hkinds⟩

end GraphPattern.Shorthand
