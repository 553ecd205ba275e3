import GraphPattern.Proofs.Pattern.Blocks
import GraphPattern.Proofs.Pattern.Effective

/-!
# Patterns on one line

The text of a pattern on one line is the same at every depth. `Group.line` is that text: what stands
between braces, with the same braces where nothing does. It does not tell how triples are divided into
blocks, nor variables from their values: a pattern is written as its normal form with joined blocks
(`Group.text_joinBlocks_normal`).
-/

namespace GraphPattern

/-! ## The text on one line -/

mutual

/-- An element on one line, with the space before it. -/
def Element.line : Element → List Char
  | .block ts => ts.flatMap fun t => ' ' :: (t.render.toList ++ [' ', '.'])
  | .optional g => ' ' :: ("OPTIONAL ".toList ++ '{' :: (Group.lineInside g ++ [' ', '}']))
  | .union gs => ' ' :: Group.lineOfAlternatives gs
  | .minus g => ' ' :: ("MINUS ".toList ++ '{' :: (Group.lineInside g ++ [' ', '}']))
  | .subQuery d vs g _ =>
    ' ' :: '{' :: ' ' :: ((renderHead d vs).toList ++
      '{' :: (Group.lineInside g ++ [' ', '}', ' ', '}']))
  | .bind e v =>
    ' ' :: ("BIND(".toList ++ (e.render.toList ++
      ' ' :: ("AS".toList ++ ' ' :: (v.render.toList ++ [')']))))
  | .filter e => ' ' :: ("FILTER(".toList ++ (e.render.toList ++ [')']))

/-- The elements of a group on one line, each with the space before it. -/
def Group.lineInside : List Element → List Char
  | [] => []
  | e :: g => Element.line e ++ Group.lineInside g

/-- The alternatives of a union on one line. -/
def Group.lineOfAlternatives : List (List Element) → List Char
  | [] => []
  | g :: gs => '{' :: (Group.lineInside g ++ ' ' :: '}' :: Group.lineOfFurther gs)

/-- The alternatives of a union behind the first. -/
def Group.lineOfFurther : List (List Element) → List Char
  | [] => []
  | g :: gs =>
    ' ' :: ("UNION ".toList ++ '{' :: (Group.lineInside g ++ ' ' :: '}' :: Group.lineOfFurther gs))

end

theorem Layout.toList_lineBreak_oneLine (depth : Nat) : (oneLine.lineBreak depth).toList = [' '] := by
  rw [lineBreak, if_neg (by decide)]
  rfl

namespace Group

/-- The group with its braces on one line. -/
def line (g : Group) : List Char := '{' :: (lineInside g ++ [' ', '}'])

@[simp] theorem lineInside_append (g h : List Element) :
    lineInside (g ++ h) = lineInside g ++ lineInside h := by
  induction g with
  | nil => rw [List.nil_append, lineInside, List.nil_append]
  | cons e g ih => rw [List.cons_append, lineInside, ih, lineInside, List.append_assoc]

theorem lineInside_eq_flatMap (g : List Element) : lineInside g = g.flatMap Element.line := by
  induction g with
  | nil => rw [lineInside, List.flatMap_nil]
  | cons e g ih => rw [lineInside, ih, List.flatMap_cons]

theorem lineOfFurther_eq_flatMap (gs : List (List Element)) :
    lineOfFurther gs = gs.flatMap fun g => ' ' :: ("UNION ".toList ++ line g) := by
  induction gs with
  | nil => rw [lineOfFurther, List.flatMap_nil]
  | cons g gs ih =>
    rw [lineOfFurther, ih, List.flatMap_cons, line]
    simp only [List.append_assoc, List.cons_append, List.nil_append]

theorem lineOfAlternatives_cons (g : List Element) (gs : List (List Element)) :
    lineOfAlternatives (g :: gs) = line g ++ lineOfFurther gs := by
  simp only [lineOfAlternatives, line, List.append_assoc, List.cons_append, List.nil_append]

end Group

namespace Element

theorem line_optional (g : Group) :
    (Element.optional g).line = (' ' :: "OPTIONAL ".toList) ++ g.line := by
  rw [line, Group.line, List.cons_append]

theorem line_minus (g : Group) : (Element.minus g).line = (' ' :: "MINUS ".toList) ++ g.line := by
  rw [line, Group.line, List.cons_append]

theorem line_union_cons (g : Group) (gs : List Group) :
    (Element.union (g :: gs)).line = ' ' :: (g.line ++ Group.lineOfFurther gs) := by
  rw [line, Group.lineOfAlternatives_cons]

theorem line_subQuery (d : Bool) (vs : List Variable) (g : Group) (p : Prefixes) :
    (Element.subQuery d vs g p).line =
      ' ' :: '{' :: ' ' :: ((renderHead d vs).toList ++ (g.line ++ [' ', '}'])) := by
  simp only [line, Group.line, List.cons_append, List.append_assoc, List.nil_append]

end Element

namespace Group

theorem renderInside_of_isVacant (l : Layout) (depth : Nat) {g : Group} (h : g.isVacant = true) :
    renderInside l depth g = "" := by
  induction g with
  | nil => rfl
  | cons e g ih =>
    rw [isVacant, List.all_cons, Bool.and_eq_true] at h
    rw [Element.eq_block_nil_of_isEmptyBlock h.1, renderInside, ih h.2]
    rfl

/-- On one line, the braces around nothing are those around everything else. -/
theorem toList_scope (depth : Nat) (g : Group) :
    (Layout.oneLine.scope depth g (renderInside .oneLine (depth + 1) g)).toList =
      '{' :: ((renderInside .oneLine (depth + 1) g).toList ++ [' ', '}']) := by
  rw [Layout.scope]
  split
  · rename_i h
    rw [renderInside_of_isVacant _ _ h]
    rfl
  · simp only [Layout.braces, String.toList_append, List.append_assoc,
      Layout.toList_lineBreak_oneLine]
    rfl

end Group

mutual

theorem Element.toList_render (depth : Nat) :
    ∀ e : Element, (e.render .oneLine depth).toList = e.line
  | .block ts => by
    rw [Element.render, Element.line]
    induction ts with
    | nil => rfl
    | cons t ts ih =>
      rw [List.map_cons, String.join_cons, String.toList_append, ih, List.flatMap_cons,
        String.toList_append, String.toList_append, Layout.toList_lineBreak_oneLine]
      simp only [List.cons_append, List.append_assoc, List.nil_append]
      rfl
  | .optional g => by
    rw [Element.render, String.toList_append, String.toList_append, Group.toList_scope,
      Group.toList_renderInside (depth + 1) g, Layout.toList_lineBreak_oneLine, Element.line]
    rfl
  | .union gs => by
    rw [Element.render, String.toList_append, Group.toList_renderAlternatives depth gs,
      Layout.toList_lineBreak_oneLine, Element.line, List.singleton_append]
  | .minus g => by
    rw [Element.render, String.toList_append, String.toList_append, Group.toList_scope,
      Group.toList_renderInside (depth + 1) g, Layout.toList_lineBreak_oneLine, Element.line]
    rfl
  | .subQuery d vs g p => by
    simp only [Element.render, Layout.braces, String.toList_append, Group.toList_scope,
      Group.toList_renderInside (depth + 2) g, Layout.toList_lineBreak_oneLine, Element.line,
      List.append_assoc, List.cons_append]
    rfl
  | .bind e v => by
    simp only [Element.render, String.toList_append, Layout.toList_lineBreak_oneLine, Element.line,
      List.append_assoc]
    rfl
  | .filter e => by
    simp only [Element.render, String.toList_append, Layout.toList_lineBreak_oneLine, Element.line,
      List.append_assoc]
    rfl

theorem Group.toList_renderInside (depth : Nat) :
    ∀ g : List Element, (Group.renderInside .oneLine depth g).toList = Group.lineInside g
  | [] => by
    rw [Group.renderInside, Group.lineInside]
    rfl
  | e :: g => by
    rw [Group.renderInside, String.toList_append, Element.toList_render depth e,
      Group.toList_renderInside depth g, Group.lineInside]

theorem Group.toList_renderAlternatives (depth : Nat) : ∀ gs : List (List Element),
    (Group.renderAlternatives .oneLine depth gs).toList = Group.lineOfAlternatives gs
  | [] => by
    rw [Group.renderAlternatives, Group.lineOfAlternatives]
    rfl
  | [g] => by
    rw [Group.renderAlternatives, Group.toList_scope, Group.toList_renderInside (depth + 1) g,
      Group.lineOfAlternatives, Group.lineOfFurther]
  | g :: h :: gs => by
    have hrest := Group.toList_renderAlternatives depth (h :: gs)
    rw [Group.renderAlternatives, String.toList_append, String.toList_append, hrest,
      Group.toList_scope, Group.toList_renderInside (depth + 1) g]
    simp only [Group.lineOfAlternatives, Group.lineOfFurther, List.append_assoc, List.cons_append,
      List.nil_append]
    rfl

end

theorem Group.toList_text (g : Group) : g.text.toList = g.line := by
  rw [text, render, toList_scope, toList_renderInside, line]

/-! ## What the text does not tell -/

mutual

theorem Element.lineInside_spread : ∀ e : Element, Group.lineInside e.spread = e.line
  | .block ts => by
    rw [Element.spread, Group.lineInside_eq_flatMap, List.flatMap_map, Element.line]
    simp only [Element.line, List.flatMap_singleton]
  | .optional g => by
    rw [Element.spread, Group.lineInside, Group.lineInside, List.append_nil, Element.line,
      Group.lineInside_spread g, Element.line]
  | .union gs => by
    rw [Element.spread, Group.lineInside, Group.lineInside, List.append_nil, Element.line,
      Group.lineOfAlternatives_spreadAll gs, Element.line]
  | .minus g => by
    rw [Element.spread, Group.lineInside, Group.lineInside, List.append_nil, Element.line,
      Group.lineInside_spread g, Element.line]
  | .subQuery d vs g p => by
    rw [Element.spread, Group.lineInside, Group.lineInside, List.append_nil, Element.line,
      Group.lineInside_spread g, Element.line]
  | .bind e v => List.append_nil _
  | .filter e => List.append_nil _

theorem Group.lineInside_spread :
    ∀ g : List Element, Group.lineInside (Group.spread g) = Group.lineInside g
  | [] => rfl
  | e :: g => by
    rw [Group.spread, Group.lineInside_append, Element.lineInside_spread e,
      Group.lineInside_spread g, Group.lineInside]

theorem Group.lineOfAlternatives_spreadAll : ∀ gs : List (List Element),
    Group.lineOfAlternatives (Group.spreadAll gs) = Group.lineOfAlternatives gs
  | [] => rfl
  | g :: gs => by
    rw [Group.spreadAll, Group.lineOfAlternatives, Group.lineInside_spread g,
      Group.lineOfFurther_spreadAll gs, Group.lineOfAlternatives]

theorem Group.lineOfFurther_spreadAll : ∀ gs : List (List Element),
    Group.lineOfFurther (Group.spreadAll gs) = Group.lineOfFurther gs
  | [] => rfl
  | g :: gs => by
    rw [Group.spreadAll, Group.lineOfFurther, Group.lineInside_spread g,
      Group.lineOfFurther_spreadAll gs, Group.lineOfFurther]

end

theorem Group.lineInside_consJoining (e : Element) (g : Group) :
    lineInside (consJoining e g) = e.line ++ lineInside g := by
  cases e with
  | block ts =>
    match g with
    | .block us :: g =>
      simp only [consJoining, lineInside, Element.line, List.flatMap_append, List.append_assoc]
    | [] | .optional _ :: _ | .union _ :: _ | .minus _ :: _ | .subQuery _ _ _ _ :: _ | .bind _ _ :: _
    | .filter _ :: _ => simp only [consJoining, lineInside]
  | _ => simp only [consJoining, lineInside]

mutual

theorem Element.line_joinBlocks : ∀ e : Element, e.joinBlocks.line = e.line
  | .block ts => by rw [Element.joinBlocks]
  | .optional g => by
    rw [Element.joinBlocks, Element.line, Group.lineInside_joinBlocks g, Element.line]
  | .union gs => by
    rw [Element.joinBlocks, Element.line, Group.lineOfAlternatives_joinBlocksOfAll gs, Element.line]
  | .minus g => by
    rw [Element.joinBlocks, Element.line, Group.lineInside_joinBlocks g, Element.line]
  | .subQuery d vs g p => by
    rw [Element.joinBlocks, Element.line, Group.lineInside_joinBlocks g, Element.line]
  | .bind e v => by rw [Element.joinBlocks]
  | .filter e => by rw [Element.joinBlocks]

theorem Group.lineInside_joinBlocks :
    ∀ g : List Element, Group.lineInside (Group.joinBlocks g) = Group.lineInside g
  | [] => by rw [Group.joinBlocks]
  | e :: g => by
    rw [Group.joinBlocks, Group.lineInside_consJoining, Element.line_joinBlocks e,
      Group.lineInside_joinBlocks g, Group.lineInside]

theorem Group.lineOfAlternatives_joinBlocksOfAll : ∀ gs : List (List Element),
    Group.lineOfAlternatives (Group.joinBlocksOfAll gs) = Group.lineOfAlternatives gs
  | [] => by rw [Group.joinBlocksOfAll]
  | g :: gs => by
    rw [Group.joinBlocksOfAll, Group.lineOfAlternatives, Group.lineInside_joinBlocks g,
      Group.lineOfFurther_joinBlocksOfAll gs, Group.lineOfAlternatives]

theorem Group.lineOfFurther_joinBlocksOfAll : ∀ gs : List (List Element),
    Group.lineOfFurther (Group.joinBlocksOfAll gs) = Group.lineOfFurther gs
  | [] => by rw [Group.joinBlocksOfAll]
  | g :: gs => by
    rw [Group.joinBlocksOfAll, Group.lineOfFurther, Group.lineInside_joinBlocks g,
      Group.lineOfFurther_joinBlocksOfAll gs, Group.lineOfFurther]

end

theorem SlotMap.keepsText_normal : SlotMap.normal.KeepsText where
  term := Term.render_effective
  projected v := by
    obtain ⟨name, _ | value⟩ := v
    · rfl
    · show "(" ++ value.effective.render ++ _ ++ _ ++ _ = _
      rw [Term.render_effective]
      rfl

namespace Group

/-- A pattern is written as the pattern with a block for each triple and values for variables. -/
theorem line_mapSlots_spread (g : Group) : line (mapSlots .normal (spread g)) = line g := by
  have hspread : line (spread g) = line g := by rw [line, lineInside_spread, line]
  rw [← toList_text, text, render_mapSlots _ SlotMap.keepsText_normal, ← text, toList_text, hspread]

/-- The text does not tell a pattern from its normal form, nor blocks that follow one another from one
block. -/
theorem text_joinBlocks_normal (g : Group) : text (joinBlocks g.normal) = g.text := by
  rw [← String.toList_inj, toList_text, toList_text, joinBlocks_normal, line, lineInside_joinBlocks,
    ← line, line_mapSlots_spread]

end Group

end GraphPattern
