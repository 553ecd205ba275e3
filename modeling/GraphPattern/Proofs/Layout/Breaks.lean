import GraphPattern.Proofs.Layout.Names
import GraphPattern.Proofs.Layout.Pieces

/-!
# Line breaks

Of all that is written in lines, only line breaks hold newlines, and what stands behind one does not
start with a space. So the text on one line is the text in lines with each newline and the spaces
behind it made one space, and the spaces behind a newline are those of the braces that are open there
(`layouts_agree`). Names have to be without newlines; texts of literals may hold any character.
-/

namespace GraphPattern

open Shorthand

/-! ## Joined lines -/

theorem length_dropSpaces_le (cs : List Char) : (cs.dropWhile (· = ' ')).length ≤ cs.length :=
  (List.dropWhile_sublist _).length_le

/-- The text with a space for each newline and all spaces directly behind it. -/
def joinLines : List Char → List Char
  | [] => []
  | c :: cs =>
    if c = '\n' then ' ' :: joinLines (cs.dropWhile (· = ' ')) else c :: joinLines cs
termination_by cs => cs.length
decreasing_by
  · exact Nat.lt_succ_of_le (length_dropSpaces_le cs)
  · exact Nat.lt_succ_self _

theorem joinLines_nil : joinLines [] = [] := by rw [joinLines]

theorem joinLines_append {w : List Char} (hw : '\n' ∉ w) (cs : List Char) :
    joinLines (w ++ cs) = w ++ joinLines cs := by
  induction w with
  | nil => rfl
  | cons c w ih =>
    rw [List.mem_cons, not_or] at hw
    rw [List.cons_append, joinLines, if_neg (Ne.symm hw.1), ih hw.2, List.cons_append]

theorem joinLines_newline {cs : List Char} (hcs : ∀ c ∈ cs.head?, c ≠ ' ') (n : Nat) :
    joinLines ('\n' :: (List.replicate n ' ' ++ cs)) = ' ' :: joinLines cs := by
  rw [joinLines, if_pos rfl, dropWhile_append_of_head]
  · intro c hc
    simpa using (List.mem_replicate.mp hc).2
  · exact fun c hc => by simpa using hcs c hc

/-! ## Well laid pieces -/

/-- The number of braces that are closed directly in front of the pieces. -/
def closes : List Piece → Nat
  | .closing :: _ => 1
  | _ => 0

/-- Whether a text that the pieces start with does not start with a space. -/
def IsFlush : List Piece → Prop
  | .text s :: _ => Unspaced s
  | _ => True

/-- Whether, with some braces open, the pieces are a text in which only line breaks hold newlines, no
spaces stand behind them, and each is for the number of open braces, less one that is closed next. -/
inductive Laid : Nat → List Piece → Prop where
  | nil {depth} : Laid depth []
  | text {depth s ps} (hs : Unbroken s) (h : Laid depth ps) : Laid depth (.text s :: ps)
  | opening {depth ps} (h : Laid (depth + 1) ps) : Laid depth (.opening :: ps)
  | closing {depth ps} (h : Laid depth ps) : Laid (depth + 1) (.closing :: ps)
  | lineBreak {depth ps} (hflush : IsFlush ps) (h : Laid (closes ps + depth) ps) :
      Laid (closes ps + depth) (.lineBreak depth :: ps)

namespace Layout

theorem toList_lineBreak_lines (indent depth : Nat) :
    (lineBreak ⟨true, indent⟩ depth).toList = '\n' :: List.replicate (depth * indent) ' ' := by
  simp only [lineBreak, if_true, String.toList_append, String.toList_ofList]
  rfl

theorem toList_lineBreak_flat (indent depth : Nat) :
    (lineBreak ⟨false, indent⟩ depth).toList = [' '] := by
  rw [lineBreak, if_neg Bool.false_ne_true]
  rfl

end Layout

theorem IsFlush.head_write {ps : List Piece} (h : IsFlush ps) (indent : Nat) :
    ∀ c ∈ (Layout.write ⟨true, indent⟩ ps).head?, c ≠ ' ' := by
  cases ps with
  | nil => exact nofun
  | cons p ps =>
    cases p with
    | text s =>
      obtain ⟨c, hc, hne⟩ := h
      obtain ⟨cs, hcs⟩ := List.head?_eq_some_iff.mp hc
      rw [Layout.write_cons, Piece.render, hcs]
      rintro _ ⟨⟩
      exact hne
    | opening =>
      rintro _ ⟨⟩
      decide
    | closing =>
      rintro _ ⟨⟩
      decide
    | lineBreak depth =>
      rw [Layout.write_cons, Piece.render, Layout.toList_lineBreak_lines]
      rintro _ ⟨⟩
      decide

/-- What has no newline stands before each newline of a text that starts with it. -/
theorem exists_append_of_newline {w cs before after : List Char} (hw : '\n' ∉ w)
    (h : w ++ cs = before ++ '\n' :: after) :
    ∃ more, before = w ++ more ∧ cs = more ++ '\n' :: after := by
  rcases List.append_eq_append_iff.mp h with h | ⟨more, hmore, hafter⟩
  · exact h
  · cases more with
    | nil => exact ⟨[], by simpa using hmore.symm, hafter.symm⟩
    | cons c more =>
      obtain rfl := (List.cons.inj hafter).1
      exact absurd (hmore ▸ by simp) hw

namespace Laid

variable {depth : Nat} {ps : List Piece}

/-- Lines that are joined are the text on one line. -/
theorem joinLines_write (h : Laid depth ps) (indent indent' : Nat) :
    joinLines (Layout.write ⟨true, indent⟩ ps) = Layout.write ⟨false, indent'⟩ ps := by
  induction h with
  | nil => exact joinLines_nil
  | text hs _ ih => rw [Layout.write_cons, Piece.render, joinLines_append hs, ih]; rfl
  | opening _ ih => rw [Layout.write_cons, Piece.render, joinLines_append (by decide), ih]; rfl
  | closing _ ih => rw [Layout.write_cons, Piece.render, joinLines_append (by decide), ih]; rfl
  | lineBreak hflush _ ih =>
    rw [Layout.write_cons, Piece.render, Layout.toList_lineBreak_lines, List.cons_append,
      joinLines_newline (hflush.head_write indent), ih, Layout.write_cons, Piece.render,
      Layout.toList_lineBreak_flat, List.singleton_append]

/-- Where a newline is written there is a line break, with all that is written before it in front of it.
The spaces behind it are those of the braces that are open. -/
theorem exists_lineBreak (h : Laid depth ps) {indent : Nat} {before after : List Char}
    (htext : Layout.write ⟨true, indent⟩ ps = before ++ '\n' :: after) :
    ∃ front inner back, ps = front ++ .lineBreak inner :: back ∧
      before = Layout.write ⟨true, indent⟩ front ∧
      depth + front.count .opening = front.count .closing + closes back + inner ∧
      (after.takeWhile (· = ' ')).length = indent * inner := by
  induction h generalizing before with
  | nil => simp at htext
  | @text depth s ps hs _ ih =>
    obtain ⟨more, rfl, hmore⟩ := exists_append_of_newline hs htext
    obtain ⟨front, inner, back, rfl, rfl, hcount, hspaces⟩ := ih hmore
    exact ⟨.text s :: front, inner, back, rfl, rfl, by simpa using hcount, hspaces⟩
  | @opening depth ps _ ih =>
    obtain ⟨more, rfl, hmore⟩ := exists_append_of_newline (w := ['{']) (by decide) htext
    obtain ⟨front, inner, back, rfl, rfl, hcount, hspaces⟩ := ih hmore
    refine ⟨.opening :: front, inner, back, rfl, rfl, ?_, hspaces⟩
    rw [List.count_cons_self, List.count_cons_of_ne (by decide)]
    omega
  | @closing depth ps _ ih =>
    obtain ⟨more, rfl, hmore⟩ := exists_append_of_newline (w := ['}']) (by decide) htext
    obtain ⟨front, inner, back, rfl, rfl, hcount, hspaces⟩ := ih hmore
    refine ⟨.closing :: front, inner, back, rfl, rfl, ?_, hspaces⟩
    rw [List.count_cons_self, List.count_cons_of_ne (by decide)]
    omega
  | @lineBreak inner ps hflush _ ih =>
    rw [Layout.write_cons, Piece.render, Layout.toList_lineBreak_lines, List.cons_append] at htext
    cases before with
    | nil =>
      obtain ⟨-, rfl⟩ := List.cons.inj htext
      refine ⟨[], inner, ps, rfl, rfl, by simp, ?_⟩
      rw [takeWhile_append_of_head, List.length_replicate, Nat.mul_comm]
      · exact fun c hc => by simpa using (List.mem_replicate.mp hc).2
      · exact fun c hc => by simpa using hflush.head_write indent c hc
    | cons c before =>
      obtain ⟨rfl, htail⟩ := List.cons.inj htext
      have hspaces : '\n' ∉ List.replicate (inner * indent) ' ' := fun hmem =>
        absurd (List.mem_replicate.mp hmem).2 (by decide)
      obtain ⟨more, rfl, hmore⟩ := exists_append_of_newline hspaces htail
      obtain ⟨front, next, back, rfl, rfl, hcount, hnext⟩ := ih hmore
      refine ⟨.lineBreak inner :: front, next, back, rfl, ?_, by simpa using hcount, hnext⟩
      rw [Layout.write_cons, Piece.render, Layout.toList_lineBreak_lines, List.cons_append]

end Laid

/-- Whether the pieces are well laid and may stand behind a line break: they do not start with a brace
that is closed, or with a space. -/
structure LaidLine (depth : Nat) (ps : List Piece) : Prop where
  laid : Laid depth ps
  closes_eq : closes ps = 0
  isFlush : IsFlush ps

/-- Whether a line break comes first, if there are pieces. -/
def BreakFirst (ps : List Piece) : Prop := ∀ p ∈ ps.head?, ∃ depth, p = .lineBreak depth

/-- Whether some pieces are well laid in front of others that start with a line break. -/
def LaidBefore (depth : Nat) (ps : List Piece) : Prop :=
  ∀ rest, Laid depth rest → BreakFirst rest → Laid depth (ps ++ rest) ∧ BreakFirst (ps ++ rest)

section Laying

variable {depth : Nat} {ps qs : List Piece}

theorem LaidLine.newline (h : LaidLine depth ps) : Laid depth (.lineBreak depth :: ps) := by
  have hbreak := @Laid.lineBreak depth ps h.isFlush
  rw [h.closes_eq, Nat.zero_add] at hbreak
  exact hbreak h.laid

theorem LaidLine.text {s : String} (hs : Unbroken s) (hspace : Unspaced s) (h : Laid depth ps) :
    LaidLine depth (.text s :: ps) :=
  ⟨.text hs h, rfl, hspace⟩

theorem Laid.laidLine (h : Laid depth ps) (hps : BreakFirst ps) : LaidLine depth ps := by
  cases ps with
  | nil => exact ⟨h, rfl, trivial⟩
  | cons p ps =>
    obtain ⟨inner, rfl⟩ := hps p rfl
    exact ⟨h, rfl, trivial⟩

/-- A line break and the brace that closes a scope. -/
theorem Laid.lastLine (h : Laid depth ps) :
    Laid (depth + 1) (.lineBreak depth :: .closing :: ps) := by
  have hbreak := @Laid.lineBreak depth (.closing :: ps) trivial
  rw [show closes (.closing :: ps) = 1 from rfl, Nat.add_comm] at hbreak
  exact hbreak (.closing h)

theorem breakFirst_cons (depth : Nat) (ps : List Piece) : BreakFirst (.lineBreak depth :: ps) := by
  rintro _ ⟨⟩
  exact ⟨depth, rfl⟩

namespace LaidBefore

theorem nil : LaidBefore depth [] := fun _ h hrest => ⟨h, hrest⟩

theorem append (hps : LaidBefore depth ps) (hqs : LaidBefore depth qs) :
    LaidBefore depth (ps ++ qs) := by
  intro rest h hrest
  obtain ⟨h, hrest⟩ := hqs rest h hrest
  rw [List.append_assoc]
  exact hps _ h hrest

/-- A line break with pieces behind it. -/
theorem line (h : ∀ rest, Laid depth rest → BreakFirst rest → LaidLine depth (ps ++ rest)) :
    LaidBefore depth (.lineBreak depth :: ps) :=
  fun rest hrest hbreak => ⟨(h rest hrest hbreak).newline, breakFirst_cons depth _⟩

theorem text {s : String} (hs : Unbroken s) (hspace : Unspaced s) :
    LaidBefore depth [.lineBreak depth, .text s] :=
  line fun _ h _ => .text hs hspace h

end LaidBefore

/-- A scope is well laid around well laid pieces. -/
theorem Laid.scope {inside : List Piece} (g : Group) (hinside : LaidBefore (depth + 1) inside)
    (h : Laid depth ps) : LaidLine depth (Group.scopePieces depth g inside ++ ps) := by
  unfold Group.scopePieces
  split
  · exact ⟨.opening (.text (by decide) (.closing h)), rfl, trivial⟩
  · have hclose := (hinside _ h.lastLine (breakFirst_cons depth _)).1
    rw [List.cons_append, List.append_assoc]
    exact ⟨.opening hclose, rfl, trivial⟩

end Laying

/-! ## Patterns and queries -/

mutual

theorem Element.laidBefore_pieces (depth : Nat) : ∀ e : Element,
    e.Everywhere (fun e => ∀ name ∈ e.names, Unbroken name) → LaidBefore depth (e.pieces depth)
  | .block ts, he => by
    rw [Element.pieces]
    induction ts with
    | nil => exact .nil
    | cons t ts ih =>
      have hts : ∀ name ∈ t.names ++ ts.flatMap Triple.names, Unbroken name := he
      rw [List.forall_mem_append] at hts
      rw [List.flatMap_cons]
      exact (LaidBefore.text (unbroken_append.mpr ⟨Triple.unbroken_render hts.1, by decide⟩)
        (t.unspaced_render.append " .")).append (ih hts.2)
  | .optional g, he => by
    rw [Element.pieces]
    refine .line fun rest h _ => .text (by decide) ⟨'O', rfl, by decide⟩ ?_
    exact (h.scope g (Group.laidBefore_piecesInside (depth + 1) g he.2)).laid
  | .union gs, he => by
    rw [Element.pieces]
    exact .line fun rest => Group.laidLine_piecesOfAlternatives depth gs he.2
  | .minus g, he => by
    rw [Element.pieces]
    refine .line fun rest h _ => .text (by decide) ⟨'M', rfl, by decide⟩ ?_
    exact (h.scope g (Group.laidBefore_piecesInside (depth + 1) g he.2)).laid
  | .subQuery d vs g _, he => by
    have hvs : ∀ v ∈ vs, ∀ name ∈ v.names, Unbroken name := fun v hv name hname =>
      he.1 name (List.mem_flatMap.mpr ⟨v, hv, hname⟩)
    rw [Element.pieces]
    refine .line fun rest h _ => ?_
    have hscope := h.lastLine.scope g (Group.laidBefore_piecesInside (depth + 2) g he.2)
    have hhead := LaidLine.text (unbroken_renderHead hvs d) (unspaced_renderHead d vs) hscope.laid
    simp only [List.cons_append, List.append_assoc, List.nil_append]
    exact ⟨.opening hhead.newline, rfl, trivial⟩
  | .bind e v, he => by
    have hnames : ∀ name ∈ e.names ++ v.names, Unbroken name := he
    rw [List.forall_mem_append] at hnames
    rw [Element.pieces]
    refine .text ?_ ⟨'B', by simp, by decide⟩
    simp only [unbroken_append]
    exact ⟨⟨⟨⟨by decide, Expression.unbroken_render e hnames.1⟩, by decide⟩,
      Variable.unbroken_render hnames.2⟩, by decide⟩
  | .filter e, he => by
    rw [Element.pieces]
    refine .text ?_ ⟨'F', by simp, by decide⟩
    simp only [unbroken_append]
    exact ⟨⟨by decide, Expression.unbroken_render e he⟩, by decide⟩

theorem Group.laidBefore_piecesInside (depth : Nat) : ∀ g : List Element,
    Group.Everywhere (fun e => ∀ name ∈ e.names, Unbroken name) g →
      LaidBefore depth (Group.piecesInside depth g)
  | [], _ => .nil
  | e :: g, hg => by
    rw [Group.piecesInside]
    exact (Element.laidBefore_pieces depth e hg.1).append
      (Group.laidBefore_piecesInside depth g hg.2)

theorem Group.laidLine_piecesOfAlternatives (depth : Nat) : ∀ gs : List (List Element),
    Group.EverywhereInAll (fun e => ∀ name ∈ e.names, Unbroken name) gs →
      ∀ {rest}, Laid depth rest → BreakFirst rest →
        LaidLine depth (Group.piecesOfAlternatives depth gs ++ rest)
  | [], _, _, h, hrest => h.laidLine hrest
  | [g], hgs, _, h, _ => by
    rw [Group.piecesOfAlternatives]
    exact h.scope g (Group.laidBefore_piecesInside (depth + 1) g hgs.1)
  | g :: g' :: gs, hgs, _, h, hrest => by
    have hmore := Group.laidLine_piecesOfAlternatives depth (g' :: gs) hgs.2 h hrest
    have hunion : Laid depth (.text " UNION " :: _) := .text (by decide) hmore.laid
    rw [Group.piecesOfAlternatives, List.append_assoc]
    exact hunion.scope g (Group.laidBefore_piecesInside (depth + 1) g hgs.1)

end

theorem Group.laid_pieces {g : Group} (h : g.IsUnbroken) : Laid 0 (g.pieces 0) := by
  have hscope := Laid.nil.scope g (laidBefore_piecesInside 1 g h)
  rw [List.append_nil] at hscope
  exact hscope.laid

theorem Query.laid_pieces {q : Query} (h : q.IsUnbroken) : Laid 0 q.pieces := by
  have hquery : LaidLine 0
      (.text (renderHead q.distinct q.projection) :: Group.pieces 0 q.pattern) :=
    .text (unbroken_renderHead h.projection q.distinct)
      (unspaced_renderHead q.distinct q.projection) (Group.laid_pieces h.pattern)
  have hdeclarations := h.prefixes
  rw [pieces]
  refine LaidLine.laid ?_
  generalize q.prefixes.toList = es at hdeclarations
  induction es with
  | nil => exact hquery
  | cons e es ih =>
    rw [List.forall_mem_cons] at hdeclarations
    rw [List.flatMap_cons, List.append_assoc]
    refine .text ?_ ⟨'P', by simp [renderDeclaration], by decide⟩ (ih hdeclarations.2).newline
    simp only [renderDeclaration, unbroken_append]
    exact ⟨⟨⟨⟨by decide, hdeclarations.1.1⟩, by decide⟩, hdeclarations.1.2⟩, by decide⟩

/-! ## Layouts -/

/-- Whether some pieces are written in all layouts, the lines are the text on one line when they are
joined, and each newline is a line break among the pieces and stands before the spaces of the braces that
are open there. A brace that closes next is not open. -/
structure IsLaidOut (pieces : List Piece) (render : Layout → String) : Prop where
  written : ∀ l, (render l).toList = l.write pieces
  joined : ∀ indent indent',
    joinLines (render ⟨true, indent⟩).toList = (render ⟨false, indent'⟩).toList
  indented : ∀ indent before after, (render ⟨true, indent⟩).toList = before ++ '\n' :: after →
    ∃ front depth back, pieces = front ++ .lineBreak depth :: back ∧
      before = Layout.write ⟨true, indent⟩ front ∧
      front.count .opening = front.count .closing + closes back + depth ∧
      (after.takeWhile (· = ' ')).length = indent * depth

theorem Laid.isLaidOut {ps : List Piece} {render : Layout → String} (h : Laid 0 ps)
    (hwritten : ∀ l, (render l).toList = l.write ps) : IsLaidOut ps render where
  written := hwritten
  joined indent indent' := by
    rw [hwritten, hwritten]
    exact h.joinLines_write indent indent'
  indented indent before after htext := by
    rw [hwritten] at htext
    have hbreak := h.exists_lineBreak htext
    simpa only [Nat.zero_add] using hbreak

/-- Without newlines in names, the layouts of a group and of a query differ in white space only: the
lines joined with single spaces are the text on one line. In lines, exactly the spaces of the open
braces stand behind each newline. -/
theorem layouts_agree :
    (∀ g : Group, g.IsUnbroken → IsLaidOut (g.pieces 0) fun l => g.render l 0) ∧
      ∀ q : Query, q.IsUnbroken → IsLaidOut q.pieces fun l => { q with layout := l }.render :=
  ⟨fun g hg => (Group.laid_pieces hg).isLaidOut fun l => g.toList_render_pieces l 0,
    fun q hq => (Query.laid_pieces hq).isLaidOut fun l =>
      Query.toList_render_pieces { q with layout := l }⟩

/-- A query with a newline in a literal, a union of nothing and a nested query. -/
def nestedQuery : Query where
  prefixes := .ofList [("ex", "http://e/")]
  distinct := true
  projection := [⟨"x", some (.iri ⟨"v"⟩)⟩]
  pattern :=
    [.optional [.block [⟨.free "s", .predicate (.iri ⟨"p"⟩), .literal (.simple "a\n  b")⟩]],
      .union [],
      .union [[], [.filter (.call (.builtin "BOUND") [.term (.free "x")])]],
      .subQuery false [] [.block []] .empty]

theorem layouts_agree_nested :
    nestedQuery.IsUnbroken ∧
      IsLaidOut (Group.pieces 0 nestedQuery.pattern) (fun l => nestedQuery.pattern.render l 0) ∧
      IsLaidOut nestedQuery.pieces (fun l => { nestedQuery with layout := l }.render) ∧
      { nestedQuery with layout := .lines }.render =
        "PREFIX ex: <http://e/>\nSELECT DISTINCT (<v> AS ?x) WHERE \x7b\n  OPTIONAL \x7b\n" ++
          "    ?s <p> \"a\\n  b\" .\n  \x7d\n  \n  \x7b \x7d UNION \x7b\n" ++
          "    FILTER(BOUND(?x))\n  \x7d\n  \x7b\n    SELECT * WHERE \x7b \x7d\n  \x7d\n\x7d" := by
  have htriple : ∀ name ∈ ["s", "p"], Unbroken name := by decide
  have hcall : ∀ name ∈ ["BOUND", "x"], Unbroken name := by decide
  have hpattern : Group.IsUnbroken nestedQuery.pattern :=
    ⟨⟨nofun, htriple, trivial⟩, ⟨nofun, trivial⟩, ⟨nofun, trivial, ⟨hcall, trivial⟩, trivial⟩,
      ⟨nofun, nofun, trivial⟩, trivial⟩
  have hquery : nestedQuery.IsUnbroken := ⟨by decide, by decide, hpattern⟩
  exact ⟨hquery, layouts_agree.1 _ hpattern, layouts_agree.2 _ hquery, by decide +kernel⟩

end GraphPattern
