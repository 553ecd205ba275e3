import GraphPattern.Query
import GraphPattern.Proofs.Shorthand.Spelling

/-!
# The pieces of a layout

What is written of a pattern or a query is made of pieces: texts, braces of scopes, and line breaks. The
pieces are the same in every layout, and only line breaks are written in more than one way
(`Group.toList_render_pieces`, `Query.toList_render_pieces`).
-/

namespace GraphPattern

/-- A piece of a text. A line break is written for a number of open braces. -/
inductive Piece where
  | text (text : String)
  | opening
  | closing
  | lineBreak (depth : Nat)
deriving DecidableEq, Repr

/-- The characters of a piece. -/
def Piece.render (l : Layout) : Piece → List Char
  | .text s => s.toList
  | .opening => ['{']
  | .closing => ['}']
  | .lineBreak depth => (l.lineBreak depth).toList

/-- The characters of all pieces. -/
def Layout.write (l : Layout) (ps : List Piece) : List Char := ps.flatMap (Piece.render l)

/-! ## The pieces of patterns -/

/-- The pieces of a group, around those of its elements. -/
def Group.scopePieces (depth : Nat) (g : Group) (inside : List Piece) : List Piece :=
  if g.isVacant then [.opening, .text " ", .closing]
  else .opening :: (inside ++ [.lineBreak depth, .closing])

mutual

/-- The pieces of an element, inside so many scopes. -/
def Element.pieces (depth : Nat) : Element → List Piece
  | .block ts => ts.flatMap fun t => [.lineBreak depth, .text (t.render ++ " .")]
  | .optional g =>
    .lineBreak depth :: .text "OPTIONAL " ::
      Group.scopePieces depth g (Group.piecesInside (depth + 1) g)
  | .union gs => .lineBreak depth :: Group.piecesOfAlternatives depth gs
  | .minus g =>
    .lineBreak depth :: .text "MINUS " ::
      Group.scopePieces depth g (Group.piecesInside (depth + 1) g)
  | .subQuery d vs g _ =>
    .lineBreak depth :: .opening :: .lineBreak (depth + 1) :: .text (renderHead d vs) ::
      (Group.scopePieces (depth + 1) g (Group.piecesInside (depth + 2) g) ++
        [.lineBreak depth, .closing])
  | .bind e v =>
    [.lineBreak depth, .text ("BIND(" ++ e.render ++ " AS " ++ v.render ++ ")")]
  | .filter e => [.lineBreak depth, .text ("FILTER(" ++ e.render ++ ")")]

/-- The pieces of the elements of a group. -/
def Group.piecesInside (depth : Nat) : List Element → List Piece
  | [] => []
  | e :: g => Element.pieces depth e ++ Group.piecesInside depth g

/-- The pieces of the alternatives of a union. -/
def Group.piecesOfAlternatives (depth : Nat) : List (List Element) → List Piece
  | [] => []
  | [g] => Group.scopePieces depth g (Group.piecesInside (depth + 1) g)
  | g :: h :: gs =>
    Group.scopePieces depth g (Group.piecesInside (depth + 1) g) ++
      .text " UNION " :: Group.piecesOfAlternatives depth (h :: gs)

end

/-- The pieces of a group, inside so many scopes. -/
def Group.pieces (depth : Nat) (g : Group) : List Piece :=
  scopePieces depth g (piecesInside (depth + 1) g)

/-- The pieces of a query. -/
def Query.pieces (q : Query) : List Piece :=
  q.prefixes.toList.flatMap (fun e => [.text (renderDeclaration e.1 e.2), .lineBreak 0]) ++
    .text (renderHead q.distinct q.projection) :: Group.pieces 0 q.pattern

/-! ## Every layout writes the pieces -/

namespace Layout

variable {l : Layout} {ps qs : List Piece}

@[simp] theorem write_nil : l.write [] = [] := rfl

@[simp] theorem write_cons (p : Piece) : l.write (p :: ps) = p.render l ++ l.write ps :=
  List.flatMap_cons

@[simp] theorem write_append : l.write (ps ++ qs) = l.write ps ++ l.write qs :=
  List.flatMap_append

/-- Texts one after the other, each made of pieces. -/
theorem toList_join_pieces {α : Type} {text : α → String} {pieces : α → List Piece}
    (h : ∀ a, (text a).toList = l.write (pieces a)) (as : List α) :
    (String.join (as.map text)).toList = l.write (as.flatMap pieces) := by
  induction as with
  | nil => rfl
  | cons a as ih =>
    rw [List.map_cons, String.join_cons, String.toList_append, h, ih, List.flatMap_cons,
      write_append]

theorem toList_scope_pieces (depth : Nat) (g : Group) {inside : String}
    (h : inside.toList = l.write ps) :
    (l.scope depth g inside).toList = l.write (Group.scopePieces depth g ps) := by
  unfold scope Group.scopePieces
  split
  · rfl
  · simp [braces, Piece.render, h]

end Layout

mutual

theorem Element.toList_render_pieces (l : Layout) (depth : Nat) :
    ∀ e : Element, (e.render l depth).toList = l.write (e.pieces depth)
  | .block ts => by
    rw [Element.render, Element.pieces]
    exact Layout.toList_join_pieces (fun t => by simp [Piece.render]) ts
  | .optional g => by
    have hscope := Layout.toList_scope_pieces depth g
      (Group.toList_renderInside_pieces l (depth + 1) g)
    simp [Element.render, Element.pieces, Piece.render, hscope]
  | .union gs => by
    have halternatives := Group.toList_renderAlternatives_pieces l depth gs
    simp [Element.render, Element.pieces, Piece.render, halternatives]
  | .minus g => by
    have hscope := Layout.toList_scope_pieces depth g
      (Group.toList_renderInside_pieces l (depth + 1) g)
    simp [Element.render, Element.pieces, Piece.render, hscope]
  | .subQuery d vs g _ => by
    have hscope := Layout.toList_scope_pieces (depth + 1) g
      (Group.toList_renderInside_pieces l (depth + 2) g)
    simp [Element.render, Element.pieces, Layout.braces, Piece.render, hscope]
  | .bind e v => by simp [Element.render, Element.pieces, Piece.render]
  | .filter e => by simp [Element.render, Element.pieces, Piece.render]

theorem Group.toList_renderInside_pieces (l : Layout) (depth : Nat) : ∀ g : List Element,
    (Group.renderInside l depth g).toList = l.write (Group.piecesInside depth g)
  | [] => by
    rw [Group.renderInside, Group.piecesInside]
    rfl
  | e :: g => by
    rw [Group.renderInside, Group.piecesInside, String.toList_append, Layout.write_append,
      Element.toList_render_pieces l depth e, Group.toList_renderInside_pieces l depth g]

theorem Group.toList_renderAlternatives_pieces (l : Layout) (depth : Nat) :
    ∀ gs : List (List Element),
      (Group.renderAlternatives l depth gs).toList =
        l.write (Group.piecesOfAlternatives depth gs)
  | [] => by
    rw [Group.renderAlternatives, Group.piecesOfAlternatives]
    rfl
  | [g] => by
    rw [Group.renderAlternatives, Group.piecesOfAlternatives]
    exact Layout.toList_scope_pieces depth g (Group.toList_renderInside_pieces l (depth + 1) g)
  | g :: h :: gs => by
    have hscope := Layout.toList_scope_pieces depth g
      (Group.toList_renderInside_pieces l (depth + 1) g)
    have hrest := Group.toList_renderAlternatives_pieces l depth (h :: gs)
    rw [Group.renderAlternatives, Group.piecesOfAlternatives]
    simp [Piece.render, hscope, hrest]

end

theorem Group.toList_render_pieces (l : Layout) (depth : Nat) (g : Group) :
    (g.render l depth).toList = l.write (g.pieces depth) :=
  Layout.toList_scope_pieces depth g (Group.toList_renderInside_pieces l (depth + 1) g)

theorem Query.toList_render_pieces (q : Query) : q.render.toList = q.layout.write q.pieces := by
  have hdeclaration : ∀ e : String × String,
      (renderDeclaration e.1 e.2 ++ q.layout.lineBreak 0).toList =
        q.layout.write [.text (renderDeclaration e.1 e.2), .lineBreak 0] := fun e => by
    simp [Piece.render]
  rw [render, pieces, String.toList_append, String.toList_append,
    Layout.toList_join_pieces hdeclaration, Group.toList_render_pieces, Layout.write_append,
    Layout.write_cons, List.append_assoc, Piece.render]

end GraphPattern
