import TransitionNetwork.Proofs.CutText
import TransitionNetwork.Proofs.TreeReach
import TransitionNetwork.Proofs.TreeTraversal

/-! Unique readability of the bracketed notation. Siblings stand next to each other without a separator, and
a leaf with a token, a leaf without one and an inner node are all written as a label and what follows it.
The first character behind the label tells them apart: a lexeme begins with no bracket, a child with the
opening one, and nothing at all with the closing one. A text therefore begins with at most one tree, and the
tree says where its text ends. -/

namespace TransitionNetwork

/-! ### What a tree shows -/

/-- A tree without its indices, and with nothing of its tokens but the lexemes. -/
inductive Outline
  | node (label : String) (lexeme : Option String) (children : List Outline)

mutual

def Shape.outline : Shape → Outline
  | .node _ label token children => .node label (token.map (·.lexeme)) (outlineAll children)

def Shape.outlineAll : List Shape → List Outline
  | [] => []
  | shape :: shapes => shape.outline :: outlineAll shapes

end

/-- The outline of the tree below a node. -/
def Tree.outline (tree : Tree) (index : Nat := Tree.root) : Outline := (tree.shape index).outline

theorem Shape.outlineAll_eq_map (shapes : List Shape) : outlineAll shapes = shapes.map outline := by
  induction shapes with
  | nil => rfl
  | cons shape shapes ih => rw [outlineAll, ih, List.map_cons]

/-! ### The notation of an outline -/

namespace Outline

/-- What stands behind the label: the lexeme of a leaf, else the text of the children. -/
def body (below : List Char) : Option String → List Outline → List Char
  | some lexeme, [] => lexeme.toList
  | _, _ => below

mutual

def chars : Outline → List Char
  | .node label lexeme children =>
    '[' :: (label.toList ++ ' ' :: (body (charsAll children) lexeme children ++ [']']))

def charsAll : List Outline → List Char
  | [] => []
  | outline :: outlines => chars outline ++ charsAll outlines

end

end Outline

theorem Shape.toList_polishAll {shapes : List Shape}
    (h : ∀ shape ∈ shapes, shape.polish.toList = shape.outline.chars) :
    (polishAll shapes).toList = Outline.charsAll (outlineAll shapes) := by
  induction shapes with
  | nil => rfl
  | cons shape shapes ih =>
      obtain ⟨hshape, hshapes⟩ := List.forall_mem_cons.mp h
      rw [polishAll, String.toList_append, hshape, ih hshapes, outlineAll, Outline.charsAll]

/-- The notation shows no more of a tree than its outline. -/
theorem Shape.toList_polish (shape : Shape) : shape.polish.toList = shape.outline.chars := by
  induction shape using Shape.induction with
  | node index label token children ih =>
      have hbelow := toList_polishAll ih
      cases token with
      | none => simp [polish, outline, Outline.chars, Outline.body, hbelow]
      | some token =>
          cases children with
          | nil => simp [polish, outline, outlineAll, Outline.chars, Outline.body]
          | cons child children => simp [polish, outline, outlineAll, Outline.chars, Outline.body, hbelow]

/-! ### Legible trees -/

/-- A text without the characters that hold the notation together. -/
def Unmarked (text : String) : Prop := ∀ mark ∈ [' ', '[', ']'], mark ∉ text.toList

-- Goes through the three marks; there are also the instances that go through all characters.
instance (text : String) : Decidable (Unmarked text) :=
  List.decidableBAll _ _

/-- A node that can be read in the notation. -/
structure Node.Legible (node : Node) : Prop where
  label : Unmarked node.label
  lexeme : ∀ token ∈ node.token, token.lexeme ≠ "" ∧ Unmarked token.lexeme
  leaf : node.token ≠ none → node.children = []

instance (node : Node) : Decidable node.Legible :=
  decidable_of_iff (Unmarked node.label ∧
      (∀ token ∈ node.token, token.lexeme ≠ "" ∧ Unmarked token.lexeme) ∧
      (node.token ≠ none → node.children = []))
    ⟨fun ⟨label, lexeme, leaf⟩ => ⟨label, lexeme, leaf⟩, fun ⟨label, lexeme, leaf⟩ => ⟨label, lexeme, leaf⟩⟩

namespace Outline

/-- An outline all of whose nodes can be read in the notation. -/
inductive Legible : Outline → Prop
  | node {label : String} {lexeme : Option String} {children : List Outline} (hlabel : Unmarked label)
      (hlexeme : ∀ text ∈ lexeme, text ≠ "" ∧ Unmarked text) (hleaf : lexeme ≠ none → children = [])
      (hchildren : ∀ child ∈ children, Legible child) : Legible (.node label lexeme children)

theorem legible_node (node : Node) (h : node.Legible) {children : List Outline}
    (hleaf : node.children = [] → children = []) (hchildren : ∀ child ∈ children, child.Legible) :
    Legible (.node node.label (node.token.map (·.lexeme)) children) := by
  refine .node h.label ?_ ?_ hchildren
  · intro text htext
    obtain ⟨token, htoken, rfl⟩ := Option.map_eq_some_iff.mp htext
    exact h.lexeme token htoken
  · intro hsome
    exact hleaf (h.leaf (by simpa using hsome))

/-! ### Reading an outline -/

/-- No other legible outline is written at the beginning of the same text. -/
def Recognised (outline : Outline) : Prop :=
  ∀ (other : Outline) (rest rest' : List Char), other.Legible →
    outline.chars ++ rest = other.chars ++ rest' → outline = other ∧ rest = rest'

theorem exists_chars_eq (outline : Outline) : ∃ tail, outline.chars = '[' :: tail := by
  cases outline
  exact ⟨_, by rw [chars]⟩

/-- A list of siblings begins with a bracket, or it is over. -/
theorem exists_charsAll_append_eq (outlines : List Outline) (rest : List Char) :
    ∃ mark ∈ ['[', ']'], ∃ tail, charsAll outlines ++ ']' :: rest = mark :: tail := by
  cases outlines with
  | nil => exact ⟨']', by simp, rest, rfl⟩
  | cons outline outlines =>
      obtain ⟨tail, htail⟩ := exists_chars_eq outline
      exact ⟨'[', by simp, tail ++ (charsAll outlines ++ ']' :: rest), by simp [charsAll, htail]⟩

/-- A list of siblings ends at the closing bracket, where no sibling begins. -/
theorem charsAll_append_inj {outlines others : List Outline} {rest rest' : List Char}
    (h : ∀ outline ∈ outlines, outline.Recognised) (hothers : ∀ other ∈ others, other.Legible)
    (htext : charsAll outlines ++ ']' :: rest = charsAll others ++ ']' :: rest') :
    outlines = others ∧ rest = rest' := by
  induction outlines generalizing others with
  | nil =>
      cases others with
      | nil => exact ⟨rfl, (List.cons.inj htext).2⟩
      | cons other others =>
          obtain ⟨tail, htail⟩ := exists_chars_eq other
          simp [charsAll, htail] at htext
  | cons outline outlines ih =>
      obtain ⟨hfirst, h⟩ := List.forall_mem_cons.mp h
      cases others with
      | nil =>
          obtain ⟨tail, htail⟩ := exists_chars_eq outline
          simp [charsAll, htail] at htext
      | cons other others =>
          obtain ⟨hother, hothers⟩ := List.forall_mem_cons.mp hothers
          rw [charsAll, charsAll, List.append_assoc, List.append_assoc] at htext
          obtain ⟨hsame, hbehind⟩ := hfirst other _ _ hother htext
          obtain ⟨hlater, hrest⟩ := ih h hothers hbehind
          exact ⟨by rw [hsame, hlater], hrest⟩

/-- A lexeme is not taken for a list of siblings. -/
theorem lexeme_append_ne {lexeme : String} (hsome : lexeme ≠ "") (hunmarked : Unmarked lexeme)
    (outlines : List Outline) (rest rest' : List Char) :
    lexeme.toList ++ rest ≠ charsAll outlines ++ ']' :: rest' := by
  intro htext
  obtain ⟨mark, hmark, tail, htail⟩ := exists_charsAll_append_eq outlines rest'
  have hne : lexeme.toList ≠ [] := by simpa using hsome
  obtain ⟨c, cs, hlexeme⟩ := List.exists_cons_of_ne_nil hne
  rw [htail, hlexeme, List.cons_append] at htext
  obtain ⟨rfl, -⟩ := List.cons.inj htext
  exact hunmarked c (List.mem_cons_of_mem _ hmark) (by simp [hlexeme])

/-- A text without marks ends where the next mark stands. -/
theorem unmarked_append_inj {text text' : String} (h : Unmarked text) (h' : Unmarked text') {mark : Char}
    (hmark : mark ∈ [' ', '[', ']']) {rest rest' : List Char}
    (heq : text.toList ++ mark :: rest = text'.toList ++ mark :: rest') : text = text' ∧ rest = rest' := by
  obtain ⟨hbefore, hbehind⟩ := Text.cut_at_mark (h mark hmark) rest
  obtain ⟨hbefore', hbehind'⟩ := Text.cut_at_mark (h' mark hmark) rest'
  rw [heq, hbefore'] at hbefore
  rw [heq, hbehind'] at hbehind
  exact ⟨String.toList_injective hbefore.symm, (List.cons.inj hbehind).2.symm⟩

/-- A text begins with at most one legible outline. -/
theorem Legible.recognised {outline : Outline} (h : outline.Legible) : outline.Recognised := by
  -- from the leaves of one outline up, while the other one is taken apart beside it
  induction h with
  | @node label lexeme children hlabel hlexeme hleaf _ ih =>
      intro other rest rest' hother htext
      obtain @⟨label', lexeme', children', hlabel', hlexeme', hleaf', hchildren'⟩ := hother
      simp only [chars, List.cons_append, List.append_assoc, List.nil_append, List.cons.injEq, true_and]
        at htext
      obtain ⟨rfl, hbody⟩ := unmarked_append_inj hlabel hlabel' (by simp) htext
      -- a lexeme is there exactly if there is one on the other side
      cases lexeme with
      | none =>
          cases lexeme' with
          | none =>
              obtain ⟨rfl, hrest⟩ := charsAll_append_inj ih hchildren' hbody
              exact ⟨rfl, hrest⟩
          | some lexeme' =>
              obtain ⟨hsome, hunmarked⟩ := hlexeme' lexeme' rfl
              rw [hleaf' (by simp)] at hbody
              exact absurd hbody.symm (lexeme_append_ne hsome hunmarked _ _ _)
      | some lexeme =>
          obtain ⟨hsome, hunmarked⟩ := hlexeme lexeme rfl
          obtain rfl := hleaf (by simp)
          cases lexeme' with
          | none => exact absurd hbody (lexeme_append_ne hsome hunmarked _ _ _)
          | some lexeme' =>
              obtain rfl := hleaf' (by simp)
              obtain ⟨rfl, hrest⟩ := unmarked_append_inj hunmarked (hlexeme' lexeme' rfl).2 (by simp) hbody
              exact ⟨rfl, hrest⟩

end Outline

/-! ### Trees -/

namespace Tree

variable {tree other : Tree} {index index' : Nat}

/-- The outline of a tree is legible when the nodes in reach are. -/
theorem legible_outline (h : ∀ node ∈ tree.preorder index, (tree.node node).Legible) :
    (tree.outline index).Legible := by
  rw [preorder, shape] at h
  rw [outline, shape]
  -- at whatever depth the tree is cut off, nothing but a node's children is missing
  generalize tree.nodes.length = depth at h ⊢
  induction depth generalizing index with
  | zero =>
      have hself : (tree.node index).Legible := h index (by simp [shapeWithin, Shape.index])
      exact Outline.legible_node _ hself (fun _ => rfl) (fun _ hchild => absurd hchild List.not_mem_nil)
  | succ depth ih =>
      rw [shapeWithin, Shape.preorder_node, List.map_cons, List.forall_mem_cons] at h
      obtain ⟨hself, hbelow⟩ := h
      rw [shapeWithin, Shape.outline, Shape.outlineAll_eq_map, List.map_map]
      refine Outline.legible_node (tree.node index) hself ?_ ?_
      · intro hnone
        rw [children, hnone, List.map_nil]
      · intro child hchild
        obtain ⟨below, hmem, rfl⟩ := List.mem_map.mp hchild
        refine ih fun node hnode => hbelow node ?_
        rw [List.map_flatMap, List.flatMap_map]
        exact List.mem_flatMap_of_mem hmem hnode

/-- Bracketed notation is unambiguous. Where the nodes in reach have labels and lexemes without the marks of
the notation, the lexemes are not empty, and only nodes without children have tokens, two texts are the same
exactly if the trees are: in shape, in labels and in lexemes, node by node. -/
theorem polish_eq_iff_outline_eq (h : ∀ node ∈ tree.preorder index, (tree.node node).Legible)
    (h' : ∀ node ∈ other.preorder index', (other.node node).Legible) :
    tree.polish index = other.polish index' ↔ tree.outline index = other.outline index' := by
  rw [← String.toList_inj, polish, polish, Shape.toList_polish, Shape.toList_polish, ← outline, ← outline]
  constructor
  · intro htext
    exact ((legible_outline h).recognised _ [] [] (legible_outline h') (by rw [htext])).1
  · intro hsame
    rw [hsame]

/-- Two leaves with tokens, one of them below an inner node, and a leaf without a token. -/
def sketched : Tree :=
  let first := ((single "A").addChild 0 "s" (some ⟨"s", "the", []⟩)).1
  let inner := ((first.addChild 0 "B" none).1.addChild 2 "v" (some ⟨"v", "runs", []⟩)).1
  (inner.addChild 0 "C" none).1

/-- The same tree from other edits: a branch was detached, the inner node was filled last, and a token has
another category. -/
def redrawn : Tree :=
  let first := (((single "A").addChild 0 "s" (some ⟨"t", "the", []⟩)).1.addChild 0 "D" none).1
  let inner := ((first.detach 2).1.addChild 0 "B" none).1
  ((inner.addChild 0 "C" none).1.addChild 3 "v" (some ⟨"v", "runs", []⟩)).1

theorem sketched_outline_eq_redrawn :
    (∀ node ∈ sketched.preorder, (sketched.node node).Legible) ∧
      (∀ node ∈ redrawn.preorder, (redrawn.node node).Legible) ∧
      sketched.polish = "[A [s the][B [v runs]][C ]]" ∧ redrawn.polish = "[A [s the][B [v runs]][C ]]" ∧
      sketched.preorder = [0, 1, 2, 3, 4] ∧ redrawn.preorder = [0, 1, 3, 5, 4] ∧
      sketched.outline = redrawn.outline := by
  have hsketched : ∀ node ∈ sketched.preorder, (sketched.node node).Legible := by decide +kernel
  have hredrawn : ∀ node ∈ redrawn.preorder, (redrawn.node node).Legible := by decide +kernel
  have htext : sketched.polish = "[A [s the][B [v runs]][C ]]" := by decide +kernel
  have htext' : redrawn.polish = "[A [s the][B [v runs]][C ]]" := by decide +kernel
  have hsame := (polish_eq_iff_outline_eq hsketched hredrawn).mp (htext.trans htext'.symm)
  exact ⟨hsketched, hredrawn, htext, htext', by decide, by decide, hsame⟩

end Tree

end TransitionNetwork
