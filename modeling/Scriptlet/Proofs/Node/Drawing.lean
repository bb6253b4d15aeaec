import Mathlib
import Scriptlet.Node.Dot
import Scriptlet.Proofs.Grammar.Image
import Scriptlet.Proofs.Node.Fields
import Scriptlet.Proofs.Script.Rendering

/-! A drawing is the tree it is made of. Its vertices are the nodes in the order in which they are met, and
the edges from each vertex lead to the parts of its node. -/
namespace Scriptlet

namespace Node

variable {showLines : Bool} {node : Node} {role : Role}

theorem figures_eq (showLines : Bool) (part : String) (nodes : List Node) (index : Nat) :
    figures showLines part index nodes =
      nodes.mapIdx fun place node => (numbered part (index + place), node.figure showLines) := by
  induction nodes generalizing index with
  | nil => rfl
  | cons node rest ih =>
    rw [figures, ih, List.mapIdx_cons]
    simp only [Nat.add_zero, Nat.add_right_comm, Nat.add_assoc]

/-- One level of the figure of a tree: the figures of its parts. -/
theorem figure_eq (showLines : Bool) (belongs : Belongs node) :
    node.figure showLines = .mk (node.lineCaption showLines) node.isExpression
      ((parts node).map fun part => (part.1, part.2.figure showLines)) := by
  have items : ∀ (part : String) (nodes : List Node), figures showLines part 0 nodes =
      (nodes.mapIdx fun index node => (numbered part index, node)).map
        fun part => (part.1, part.2.figure showLines) := by
    intro part nodes
    rw [figures_eq]
    exact List.ext_getElem (by simp) (by simp)
  have missing : isAbsent absent = true := rfl
  cases belongs with
  | absent => rfl
  | arm pattern body => simp [figure, parts, fields, pattern.present, body.present]
  | inRole wellFormed =>
    induction wellFormed with
    | statement _ ih => exact ih
    | literal | reference | bareReturn | bareVar | fnDecl => rfl
    | binary _ left right => simp [figure, parts, fields, left.present, right.present]
    | unary _ part | assignment _ part | exprStmt part | printStmt part | returnStmt part
    | varDecl _ part => simp [figure, parts, fields, part.present]
    | ifOnly condition branch =>
      simp [figure, parts, fields, condition.present, branch.present, missing]
    | ifElse condition branch _ other =>
      simp [figure, parts, fields, condition.present, branch.present, other.present]
    | whileStmt condition branch => simp [figure, parts, fields, condition.present, branch.present]
    | call callee each =>
      rw [figure, items, parts_eq_fields]
      · rfl
      · exact List.forall_mem_cons.mpr ⟨callee.present, fun part listed => (each part listed).present⟩
    | matching arms subject =>
      rw [figure, items, parts_eq_fields]
      · rfl
      · exact List.forall_mem_cons.mpr ⟨subject.present, List.forall_mem_map.mpr fun _ _ => rfl⟩
    | block each =>
      rw [figure, items, parts_eq_fields]
      · rfl
      · exact fun part listed => (each part listed).present

theorem anyDrawsAtom_eq_false {nodes : List Node} :
    anyDrawsAtom nodes = false ↔ ∀ node ∈ nodes, node.drawsAtom = false := by
  induction nodes with
  | nil => simp [anyDrawsAtom]
  | cons node rest ih => simp [anyDrawsAtom, ih]

/-- No plain value stands where a well-formed tree has a node. -/
theorem WellFormed.not_drawsAtom (wellFormed : WellFormed role node) : node.drawsAtom = false := by
  induction wellFormed with
  | literal | reference | bareReturn | bareVar => rfl
  | binary _ _ _ left right | whileStmt _ _ left right => simp [drawsAtom, left, right]
  | unary _ _ ih | assignment _ _ ih | exprStmt _ ih | printStmt _ ih | returnStmt _ ih
  | varDecl _ _ ih => simp [drawsAtom, ih]
  | call _ _ callee each => simpa [drawsAtom, callee, anyDrawsAtom_eq_false] using each
  | matching arms _ _ _ subject patterns bodies =>
    have eachArm : ∀ arm ∈ arms.map fun arm => Node.matchArm arm.1 arm.2.1 arm.2.2,
        arm.drawsAtom = false := by
      refine List.forall_mem_map.mpr fun arm listed => ?_
      simp [drawsAtom, patterns arm listed, bodies arm listed]
    rw [drawsAtom, subject, anyDrawsAtom_eq_false.mpr eachArm]
    rfl
  | ifOnly _ _ condition branch => rw [drawsAtom, condition, branch]; rfl
  | ifElse _ _ _ _ condition branch other => simp [drawsAtom, condition, branch, other]
  | block _ each => rw [drawsAtom, anyDrawsAtom_eq_false.mpr each]
  | statement _ ih => exact ih
  | fnDecl _ _ _ each => rw [drawsAtom, drawsAtom, anyDrawsAtom_eq_false.mpr each]

end Node

namespace Drawing

open Node

/-- What is drawn at a vertex: a node, the vertex above it and the part that it plays there. -/
structure Entry where
  node : Node
  parent : Nat
  part : String

/-- `Visits used parent parts entries`: the trees of the parts, drawn below a parent after the vertices
so far, are drawn as the entries. Each takes the next number, and then come the parts of its own. -/
inductive Visits : (used parent : Nat) → List (String × Node) → List Entry → Prop where
  | done : Visits used parent [] []
  | next {used parent : Nat} {part : String} {node : Node} {rest : List (String × Node)}
      {inner others : List Entry} (inside : Visits (used + 1) (used + 1) node.parts inner)
      (beside : Visits (used + 1 + inner.length) parent rest others) :
      Visits used parent ((part, node) :: rest) (⟨node, parent, part⟩ :: (inner ++ others))

variable {used parent index number : Nat} {parts rest : List (String × Node)} {entries : List Entry}
variable {entry : Entry}

/-- The vertex above an entry has a smaller number: it is the common parent or one of the new vertices. -/
theorem Visits.parent_lt (visits : Visits used parent parts entries) (drawn : parent ≤ used)
    (found : entries[index]? = some entry) :
    entry.parent ≤ used + index ∧ (entry.parent = parent ∨ used < entry.parent) := by
  induction visits generalizing index with
  | done => simp at found
  | @next used parent part node rest inner others inside beside insideIh besideIh =>
    cases index with
    | zero =>
      cases found
      exact ⟨drawn, .inl rfl⟩
    | succ index =>
      rw [List.getElem?_cons_succ] at found
      by_cases within : index < inner.length
      · rw [List.getElem?_append_left within] at found
        have bound := insideIh (Nat.le_refl _) found
        omega
      · rw [List.getElem?_append_right (Nat.le_of_not_lt within)] at found
        have bound := besideIh (by omega) found
        omega

theorem Visits.parent_range (visits : Visits used parent parts entries) (drawn : parent ≤ used)
    (listed : entry ∈ entries) :
    entry.parent < used + entries.length ∧ (entry.parent = parent ∨ used < entry.parent) := by
  obtain ⟨index, found⟩ := List.mem_iff_getElem?.mp listed
  obtain ⟨bound, place⟩ := visits.parent_lt drawn found
  obtain ⟨inside, -⟩ := List.getElem?_eq_some_iff.mp found
  exact ⟨by omega, place⟩

/-- Trees that can be drawn: each is there, and parsing can have made it. -/
def Drawable (parts : List (String × Node)) : Prop :=
  ∀ part ∈ parts, Belongs part.2 ∧ part.2.isAbsent = false

theorem drawable_parts {node : Node} (belongs : Belongs node) : Drawable node.parts := by
  intro part listed
  obtain ⟨child, present⟩ := part_child listed
  exact ⟨belongs.child _ child, present⟩

theorem preorder_drawable {node : Node} (belongs : Belongs node) (present : node.isAbsent = false) :
    preorder node = node :: node.parts.flatMap fun part => preorder part.2 := by
  refine preorder_parts fun value same => ?_
  subst same
  cases belongs with
  | absent => cases present
  | inRole wellFormed =>
    generalize same : Node.atom value = node at wellFormed
    induction wellFormed with
    | statement _ ih => exact ih same
    | _ => cases same

/-- The entries are the nodes of the trees, in the order in which they are met. -/
theorem Visits.nodes (visits : Visits used parent parts entries) (drawable : Drawable parts) :
    entries.map Entry.node = parts.flatMap fun part => preorder part.2 := by
  induction visits with
  | done => rfl
  | next inside beside insideIh besideIh =>
    obtain ⟨⟨belongs, present⟩, others⟩ := List.forall_mem_cons.mp drawable
    rw [List.map_cons, List.map_append, insideIh (drawable_parts belongs), besideIh others,
      List.flatMap_cons, preorder_drawable belongs present, List.cons_append]

/-- The entries below a vertex: their numbers, of which the first is given, their parts and their nodes. -/
def hanging (parent number : Nat) (entries : List Entry) : List (Nat × String × Node) :=
  ((entries.zipIdx number).filter fun entry => entry.1.parent = parent).map
    fun entry => (entry.2, entry.1.part, entry.1.node)

/-- Trees whose vertices are numbered on from the given number, one tree after the other, with the number
of the first vertex of each. -/
def numberedFrom (number : Nat) : List (String × Node) → List (Nat × String × Node)
  | [] => []
  | part :: rest =>
    (number, part) :: numberedFrom (number + (preorder part.2).length) rest

theorem hanging_append (parent number : Nat) (first second : List Entry) :
    hanging parent number (first ++ second) =
      hanging parent number first ++ hanging parent (number + first.length) second := by
  simp [hanging, List.zipIdx_append]

theorem hanging_eq_nil (apart : ∀ entry ∈ entries, entry.parent ≠ parent) :
    hanging parent number entries = [] := by
  rw [hanging, List.map_eq_nil_iff, List.filter_eq_nil_iff]
  intro entry listed
  simpa using apart entry.1 (List.fst_mem_of_mem_zipIdx listed)

theorem Visits.length {node : Node} {part : String} {inner : List Entry}
    (inside : Visits (used + 1) (used + 1) node.parts inner) (drawable : Drawable ((part, node) :: rest)) :
    (preorder node).length = 1 + inner.length := by
  obtain ⟨⟨belongs, present⟩, -⟩ := List.forall_mem_cons.mp drawable
  rw [preorder_drawable belongs present, ← inside.nodes (drawable_parts belongs), List.length_cons,
    List.length_map, Nat.add_comm]

/-- Below the common parent are the trees that were to be drawn there. -/
theorem Visits.hanging_parent (visits : Visits used parent parts entries) (drawable : Drawable parts)
    (drawn : parent ≤ used) : hanging parent (used + 1) entries = numberedFrom (used + 1) parts := by
  induction visits with
  | done => rfl
  | @next used parent part node rest inner others inside beside _ besideIh =>
    have innerOnly : hanging parent (used + 1 + 1) inner = [] := by
      refine hanging_eq_nil fun entry listed => ?_
      have range := inside.parent_range (Nat.le_refl _) listed
      omega
    have others := besideIh (List.forall_mem_cons.mp drawable).2 (by omega)
    have size := inside.length drawable
    have place : used + 1 + 1 + inner.length = used + 1 + inner.length + 1 := by omega
    have onward : used + 1 + (preorder node).length = used + 1 + inner.length + 1 := by omega
    rw [← List.singleton_append, hanging_append, hanging_append, List.length_singleton, innerOnly, place,
      others, numberedFrom, onward]
    simp [hanging]

/-- Below each new vertex are the parts of its node, numbered on from it. -/
theorem Visits.hanging_entry (visits : Visits used parent parts entries) (drawable : Drawable parts)
    (drawn : parent ≤ used) (found : entries[index]? = some entry) :
    hanging (used + 1 + index) (used + 1) entries =
      numberedFrom (used + 1 + index + 1) entry.node.parts := by
  induction visits generalizing index with
  | done => simp at found
  | @next used parent part node rest inner others inside beside insideIh besideIh =>
    obtain ⟨⟨belongs, present⟩, drawableRest⟩ := List.forall_mem_cons.mp drawable
    have inner_drawable := drawable_parts belongs
    have head : hanging (used + 1 + index) (used + 1) [⟨node, parent, part⟩] = [] := by
      refine hanging_eq_nil fun entry listed => ?_
      cases List.mem_singleton.mp listed
      dsimp only
      omega
    rw [← List.singleton_append, hanging_append, hanging_append, List.length_singleton, head,
      List.nil_append]
    cases index with
    | zero =>
      cases found
      -- what comes after the parts of the first node hangs from an earlier vertex
      have othersOnly : hanging (used + 1) (used + 1 + 1 + inner.length) others = [] := by
        refine hanging_eq_nil fun entry listed => ?_
        have range := beside.parent_range (by omega) listed
        omega
      rw [Nat.add_zero, othersOnly, inside.hanging_parent inner_drawable (Nat.le_refl _),
        List.append_nil]
    | succ index =>
      rw [List.getElem?_cons_succ] at found
      by_cases within : index < inner.length
      · rw [List.getElem?_append_left within] at found
        have othersOnly : hanging (used + 1 + (index + 1)) (used + 1 + 1 + inner.length) others = [] := by
          refine hanging_eq_nil fun entry listed => ?_
          have range := beside.parent_range (by omega) listed
          omega
        have same := insideIh inner_drawable (Nat.le_refl _) found
        rw [othersOnly, List.append_nil, ← Nat.add_assoc, Nat.add_right_comm, same]
      · rw [List.getElem?_append_right (Nat.le_of_not_lt within)] at found
        -- nothing inside the first node hangs from a vertex after it
        have innerOnly : hanging (used + 1 + (index + 1)) (used + 1 + 1) inner = [] := by
          refine hanging_eq_nil fun entry listed => ?_
          have range := inside.parent_range (Nat.le_refl _) listed
          omega
        have same := besideIh drawableRest (by omega) found
        have vertex : used + 1 + (index + 1) = used + 1 + inner.length + 1 + (index - inner.length) := by
          omega
        have start : used + 1 + 1 + inner.length = used + 1 + inner.length + 1 := by omega
        rw [innerOnly, List.nil_append, vertex, start, same]

variable {showLines : Bool}

def shape (node : Node) : String :=
  if node.isExpression then "ellipse" else "box"

/-- The vertices of entries, numbered from the given number on, each with the edge that leads to it. -/
def marksFrom (showLines : Bool) (number : Nat) : List Entry → List Mark
  | [] => []
  | entry :: rest =>
    .vertex number (entry.node.lineCaption showLines) (shape entry.node) ::
      .edge entry.parent number entry.part :: marksFrom showLines (number + 1) rest

theorem marksFrom_append (showLines : Bool) (number : Nat) (first second : List Entry) :
    marksFrom showLines number (first ++ second) =
      marksFrom showLines number first ++ marksFrom showLines (number + first.length) second := by
  induction first generalizing number with
  | nil => rfl
  | cons entry first ih =>
    simp only [List.cons_append, marksFrom, ih, List.length_cons, Nat.add_right_comm, Nat.add_assoc]

/-- A drawing with entries added to it. -/
def extended (showLines : Bool) (drawing : Drawing) (entries : List Entry) : Drawing :=
  ⟨drawing.marks ++ (marksFrom showLines (drawing.last + 1) entries).toArray,
    drawing.last + entries.length⟩

theorem extended_append (showLines : Bool) (drawing : Drawing) (first second : List Entry) :
    extended showLines (extended showLines drawing first) second =
      extended showLines drawing (first ++ second) := by
  simp [extended, marksFrom_append, Nat.add_assoc, Nat.add_comm, Nat.add_left_comm]

/-- To draw a tree is to add it as an entry and then to add the entries that its parts are visited as. -/
def DrawnAsEntries (showLines : Bool) (node : Node) : Prop :=
  ∀ drawing parent part, ∃ inner, Visits (drawing.last + 1) (drawing.last + 1) node.parts inner ∧
    add drawing parent part (node.figure showLines) =
      extended showLines drawing (⟨node, parent, part⟩ :: inner)

theorem addChildren_visits (each : ∀ part ∈ parts, DrawnAsEntries showLines part.2)
    (drawing : Drawing) (parent : Nat) :
    ∃ entries, Visits drawing.last parent parts entries ∧
      addChildren drawing parent (parts.map fun part => (part.1, part.2.figure showLines)) =
        extended showLines drawing entries := by
  induction parts generalizing drawing with
  | nil => exact ⟨[], .done, by simp [addChildren, extended, marksFrom]⟩
  | cons part rest ih =>
    obtain ⟨inner, inside, added⟩ := each part (by simp) drawing parent part.1
    obtain ⟨others, beside, onward⟩ := ih (fun other listed => each other (by simp [listed]))
      (extended showLines drawing (⟨part.2, parent, part.1⟩ :: inner))
    have place : (extended showLines drawing (⟨part.2, parent, part.1⟩ :: inner)).last =
        drawing.last + 1 + inner.length := by
      simp only [extended, List.length_cons]
      omega
    rw [place] at beside
    refine ⟨_, .next inside beside, ?_⟩
    rw [List.map_cons, addChildren, addChild, added, onward, extended_append]
    rfl

/-- By induction on what is below: the parts of a tree are drawn below its own vertex. -/
theorem drawnAsEntries (showLines : Bool) (node : Node) (belongs : Belongs node) :
    DrawnAsEntries showLines node := by
  induction node using below_induction with
  | step node ih =>
    intro drawing parent part
    have each : ∀ inner ∈ node.parts, DrawnAsEntries showLines inner.2 :=
      fun inner listed => ih _ (part_child listed).1 (belongs.child _ (part_child listed).1)
    let placed := extended showLines drawing [⟨node, parent, part⟩]
    obtain ⟨inner, inside, added⟩ := addChildren_visits each placed placed.last
    refine ⟨inner, inside, ?_⟩
    have step : add drawing parent part (node.figure showLines) = addChildren placed placed.last
        (node.parts.map fun part => (part.1, part.2.figure showLines)) := by
      have marks : placed.marks =
          (drawing.marks.push (.vertex (drawing.last + 1) (node.lineCaption showLines) (shape node))).push
            (.edge parent (drawing.last + 1) part) := by
        apply Array.toList_inj.mp
        simp [placed, extended, marksFrom]
      rw [figure_eq showLines belongs, add, ← shape, ← marks]
      rfl
    rw [step, added, extended_append]
    rfl

/-- An edge with the numbers of its two vertices. -/
structure Edge where
  parent : Nat
  child : Nat
  label : String

/-- The numbers, labels and shapes of the vertices, in the order in which they are declared. -/
def vertices (drawing : Drawing) : List (Nat × String × String) :=
  drawing.marks.toList.filterMap fun
    | .vertex number label shape => some (number, label, shape)
    | .edge .. => none

def edges (drawing : Drawing) : List Edge :=
  drawing.marks.toList.filterMap fun
    | .vertex .. => none
    | .edge parent child label => some ⟨parent, child, label⟩

/-- The edges from a vertex in a drawing of the nodes: the vertices that they lead to, each with its part
and its node. -/
def below (drawing : Drawing) (nodes : List Node) (parent : Nat) : List (Nat × String × Option Node) :=
  (drawing.edges.filter fun edge => edge.parent = parent).map
    fun edge => (edge.child, edge.label, nodes[edge.child - 1]?)

variable {drawing : Drawing}

theorem vertices_extended (showLines : Bool) (drawing : Drawing) (entries : List Entry) :
    (extended showLines drawing entries).vertices = drawing.vertices ++ entries.mapIdx fun index entry =>
      (drawing.last + 1 + index, entry.node.lineCaption showLines, shape entry.node) := by
  have added : ∀ number, (marksFrom showLines number entries).filterMap (fun
      | .vertex number label shape => some (number, label, shape)
      | .edge .. => none) = entries.mapIdx fun index entry =>
        (number + index, entry.node.lineCaption showLines, shape entry.node) := by
    induction entries with
    | nil => exact fun _ => rfl
    | cons entry rest ih =>
      intro number
      simp [marksFrom, ih, List.mapIdx_cons, Nat.add_assoc, Nat.add_comm 1]
  simp only [vertices, extended, Array.toList_append, List.filterMap_append, added]

theorem edges_extended (showLines : Bool) (drawing : Drawing) (entries : List Entry) :
    (extended showLines drawing entries).edges = drawing.edges ++ (entries.zipIdx (drawing.last + 1)).map
      fun entry => ⟨entry.1.parent, entry.2, entry.1.part⟩ := by
  have added : ∀ number, (marksFrom showLines number entries).filterMap (fun
      | .vertex .. => none
      | .edge parent child label => some (⟨parent, child, label⟩ : Edge)) =
        (entries.zipIdx number).map fun entry => ⟨entry.1.parent, entry.2, entry.1.part⟩ := by
    induction entries with
    | nil => exact fun _ => rfl
    | cons entry rest ih =>
      intro number
      simp [marksFrom, ih, List.zipIdx_cons]
  simp only [edges, extended, Array.toList_append, List.filterMap_append, added]

/-- Below a vertex are the entries that hang there. -/
theorem below_extended (showLines : Bool) (entries : List Entry) (parent : Nat) :
    (extended showLines start entries).below (entries.map Entry.node) parent =
      (hanging parent 1 entries).map fun inner => (inner.1, inner.2.1, some inner.2.2) := by
  have none : start.edges = [] := rfl
  rw [below, edges_extended, none, List.nil_append, hanging, List.filter_map, List.map_map, List.map_map]
  refine List.map_congr_left fun entry listed => ?_
  obtain ⟨place, -⟩ := List.mem_filter.mp listed
  obtain ⟨first, found⟩ := List.mem_zipIdx_iff_le_and_getElem?_sub.mp place
  have node : (entries.map Entry.node)[entry.2 - 1]? = some entry.1.node := by
    rw [List.getElem?_map]
    exact congrArg (Option.map Entry.node) found
  simp only [Function.comp, node]

theorem rootParts_eq (showLines : Bool) (index : Nat) (program : List Node) :
    rootParts showLines index program =
      (program.mapIdx fun place statement => (toString (index + place), statement)).map
        fun part => (part.1, part.2.figure showLines) := by
  induction program generalizing index with
  | nil => rfl
  | cons statement rest ih =>
    simp [rootParts, ih, List.mapIdx_cons, Nat.add_assoc, Nat.add_comm 1]

/-- The statements of a program, each with its place in it. -/
def roots (program : List Node) : List (String × Node) :=
  program.mapIdx fun index statement => (toString index, statement)

theorem ofProgram_visits {program : List Node} (drawable : Drawable (roots program)) (showLines : Bool) :
    ∃ entries, Visits 0 0 (roots program) entries ∧
      ofProgram showLines program = extended showLines start entries := by
  have each : ∀ part ∈ roots program, DrawnAsEntries showLines part.2 :=
    fun part listed => drawnAsEntries showLines part.2 (drawable part listed).1
  have parts := rootParts_eq showLines 0 program
  simp only [Nat.zero_add] at parts
  obtain ⟨entries, visits, added⟩ := addChildren_visits each start 0
  exact ⟨entries, visits, by rw [ofProgram, parts]; exact added⟩

theorem vertexName_injective : Function.Injective Mark.vertexName := by
  have numbers : ∀ first second : Nat, toString first = toString second → first = second := by
    intro first second same
    have digits : Nat.toDigits 10 first = Nat.toDigits 10 second := by
      simpa [Nat.toString_eq_repr, Nat.toList_repr] using congrArg String.toList same
    rw [← Nat.ofDigitChars_ten_toDigits (n := first), digits, Nat.ofDigitChars_ten_toDigits]
  have apart : ∀ number : Nat, "n" ++ toString number ≠ "program" := by
    intro number same
    have starts := congrArg String.toList same
    simp at starts
  intro first second same
  unfold Mark.vertexName at same
  by_cases root : first = 0 <;> by_cases other : second = 0
  · rw [root, other]
  · rw [if_pos root, if_neg other] at same
    exact absurd same.symm (apart second)
  · rw [if_neg root, if_pos other] at same
    exact absurd same (apart first)
  · rw [if_neg root, if_neg other] at same
    exact numbers _ _ (by simpa using same)

theorem blank_notMem_vertexName (number : Nat) : ' ' ∉ (Mark.vertexName number).toList := by
  intro listed
  unfold Mark.vertexName at listed
  split at listed
  · revert listed
    decide
  · have digit : ' ' ∈ Nat.toDigits 10 number := by
      simpa [Nat.toString_eq_repr, Nat.toList_repr] using listed
    exact absurd (Nat.isDigit_of_mem_toDigits (by decide) (by decide) digit) (by decide)

/-- Where a mark leads to: whether it is an edge, and the number of the vertex. -/
def target : Mark → Bool × Nat
  | .vertex number _ _ => (false, number)
  | .edge _ child _ => (true, child)

/-- The text of a vertex starts with its name, and that of an edge with the names of both its vertices. -/
theorem target_of_text {first second : Mark} (same : first.text = second.text) :
    target first = target second := by
  have word : ∀ (number : Nat) (rest : List Char),
      ((Mark.vertexName number).toList ++ ' ' :: rest).takeWhile (· != ' ') =
        (Mark.vertexName number).toList := by
    intro number rest
    rw [List.takeWhile_append_of_pos, List.takeWhile_cons_of_neg (by simp), List.append_nil]
    intro c listed
    simpa using fun (blank : c = ' ') => blank_notMem_vertexName number (blank ▸ listed)
  have words : ∀ {one two : Nat} {rest more : List Char},
      (Mark.vertexName one).toList ++ ' ' :: rest = (Mark.vertexName two).toList ++ ' ' :: more →
        one = two ∧ rest = more := by
    intro one two rest more same
    have name := congrArg (List.takeWhile (· != ' ')) same
    rw [word, word] at name
    rw [name] at same
    exact ⟨vertexName_injective (String.toList_inj.mp name),
      (List.cons.inj (List.append_cancel_left same)).2⟩
  have chars := congrArg String.toList same
  cases first <;> cases second <;>
    simp only [Mark.text, String.toList_append, List.append_assoc, List.cons_append, List.nil_append,
      String.reduceToList, List.cons.injEq, true_and] at chars <;>
    obtain ⟨rfl, rest⟩ := words chars
  · rfl
  · cases rest
  · cases rest
  · simp only [List.cons.injEq, true_and] at rest
    obtain ⟨rfl, -⟩ := words rest
    rfl

theorem targets_nodup (showLines : Bool) (entries : List Entry) (number : Nat) :
    ((marksFrom showLines number entries).map target).Nodup ∧
      ∀ place ∈ (marksFrom showLines number entries).map target, number ≤ place.2 := by
  induction entries generalizing number with
  | nil => simp [marksFrom]
  | cons entry rest ih =>
    obtain ⟨apart, later⟩ := ih (number + 1)
    have fresh : ∀ isEdge, (isEdge, number) ∉ (marksFrom showLines (number + 1) rest).map target :=
      fun isEdge listed => absurd (later _ listed) (Nat.not_succ_le_self number)
    refine ⟨?_, ?_⟩
    · rw [marksFrom, List.map_cons, List.map_cons, List.nodup_cons, List.nodup_cons]
      exact ⟨by simpa [target] using fresh false, fresh true, apart⟩
    · intro place listed
      rw [marksFrom, List.map_cons, List.map_cons] at listed
      rcases List.mem_cons.mp listed with rfl | listed
      · exact Nat.le_refl number
      · rcases List.mem_cons.mp listed with rfl | listed
        · exact Nat.le_refl number
        · exact Nat.le_of_succ_le (later place listed)

/-- The text of a drawing lists each mark once. -/
theorem texts_nodup (showLines : Bool) (entries : List Entry) :
    ((extended showLines start entries).marks.toList.map Mark.text).Nodup := by
  obtain ⟨apart, later⟩ := targets_nodup showLines entries 1
  have marks : (extended showLines start entries).marks.toList =
      .vertex 0 "Program" "doubleoctagon" :: marksFrom showLines 1 entries := by
    simp [extended, start]
  have targets : ((extended showLines start entries).marks.toList.map target).Nodup := by
    rw [marks, List.map_cons, List.nodup_cons]
    exact ⟨fun listed => absurd (later _ listed) (Nat.not_succ_le_zero 0), apart⟩
  exact List.pairwise_map.mpr ((List.pairwise_map.mp targets).imp
    fun differ same => differ (target_of_text same))

/-- The vertices of a drawing have the numbers from zero on. -/
theorem vertices_numbered (showLines : Bool) (entries : List Entry) :
    (extended showLines start entries).vertices = (0, "Program", "doubleoctagon") ::
      (entries.map Entry.node).mapIdx fun index node => (index + 1, node.lineCaption showLines, shape node) := by
  have root : start.vertices = [(0, "Program", "doubleoctagon")] := rfl
  rw [vertices_extended, root, List.singleton_append]
  congr 1
  refine List.ext_getElem (by simp) fun index first second => ?_
  simp [start, Nat.add_comm]

theorem names_numbered (showLines : Bool) (entries : List Entry) :
    (extended showLines start entries).vertices.map (fun vertex => Mark.vertexName vertex.1) =
      "program" :: (List.range' 1 entries.length).map fun number => "n" ++ toString number := by
  rw [vertices_numbered]
  refine List.ext_getElem (by simp) fun index first second => ?_
  cases index with
  | zero => rfl
  | succ index => simp [Mark.vertexName, Nat.add_comm]

theorem names_nodup (showLines : Bool) (entries : List Entry) :
    ((extended showLines start entries).vertices.map fun vertex => Mark.vertexName vertex.1).Nodup := by
  have numbers : (extended showLines start entries).vertices.map Prod.fst =
      List.range (entries.length + 1) := by
    rw [vertices_numbered]
    refine List.ext_getElem (by simp) fun index first second => ?_
    cases index <;> simp
  have names : ((List.range (entries.length + 1)).map Mark.vertexName).Nodup :=
    List.nodup_range.map vertexName_injective
  rw [← numbers, List.map_map] at names
  exact names

/-- What is drawn as an ellipse is an expression, which the arm of a match is not. -/
theorem shape_eq (node : Node) : shape node =
    if node.kind? ∈ ([NodeKind.literal, .binary, .unary, .reference, .assignment, .call, .matching].map some)
    then "ellipse" else "box" := by
  cases node <;> rfl

theorem drawProgram_eq (wellFormed : WellFormedProgram program) (showLines : Bool) :
    drawProgram showLines program = .ok (ofProgram showLines program) := by
  have plain : anyDrawsAtom program = false :=
    anyDrawsAtom_eq_false.mpr fun statement listed => (wellFormed statement listed).not_drawsAtom
  rw [drawProgram, plain, Bool.and_false]
  rfl

theorem programDrawing_eq (wellFormed : WellFormedProgram program) (showLines : Bool) :
    programDrawing showLines program = .ok (ofProgram showLines program).text := by
  rw [programDrawing, drawProgram_eq wellFormed]
  rfl

/-- The drawing of a parsed program is the program as a tree. After the vertex of the program there is one
for each node, in the order in which the nodes are met from the top down; expressions other than the arms of
a match are ellipses. The names are `program` and then `n` with the numbers from one on, all of them
different, and the text has a piece of its own for each vertex and each edge. One edge leads to each vertex
of a node, from a vertex with a smaller number: the edges from the program lead to its statements, and those
from a node to all of its parts, each labelled with the part. A program that is within the depth limit is
drawn. -/
theorem drawing_is_tree {limits : Limits} {source : String} {program : List Node}
    (parsed : Script.parse limits source = .ok program) (showLines : Bool) :
    let nodes := preorderAll program
    let drawing := ofProgram showLines program
    let names := drawing.vertices.map fun vertex => Mark.vertexName vertex.1
    Script.render limits (drawProgram showLines) program =
        (if fitAll limits.depth program then .ok drawing else .error (.render .depthExceeded)) ∧
      Script.render limits (programDrawing showLines) program =
        (if fitAll limits.depth program then .ok drawing.text else .error (.render .depthExceeded)) ∧
      drawing.vertices = (0, "Program", "doubleoctagon") ::
        nodes.mapIdx (fun index node => (index + 1, node.lineCaption showLines,
          if node.kind? ∈ [NodeKind.literal, .binary, .unary, .reference, .assignment, .call, .matching].map some
          then "ellipse" else "box")) ∧
      names = "program" :: (List.range' 1 nodes.length).map (fun number => "n" ++ toString number) ∧
      names.Nodup ∧
      (drawing.marks.toList.map Mark.text).Nodup ∧
      drawing.edges.map Edge.child = List.range' 1 nodes.length ∧
      (∀ edge ∈ drawing.edges, edge.parent < edge.child) ∧
      drawing.below nodes 0 =
        (numberedFrom 1 (roots program)).map (fun inner => (inner.1, inner.2.1, some inner.2.2)) ∧
      ∀ index node, nodes[index]? = some node →
        drawing.below nodes (index + 1) =
          (numberedFrom (index + 2) node.parts).map (fun inner => (inner.1, inner.2.1, some inner.2.2)) := by
  intro nodes drawing names
  have wellFormed := Grammar.parse_wellFormed parsed
  have drawable : Drawable (roots program) := by
    intro part listed
    obtain ⟨index, inside, rfl⟩ := List.mem_mapIdx.mp listed
    have statement := wellFormed _ (List.getElem_mem inside)
    exact ⟨.inRole statement, statement.present⟩
  obtain ⟨entries, visits, drawn⟩ : ∃ entries, Visits 0 0 (roots program) entries ∧
      drawing = extended showLines start entries := ofProgram_visits drawable showLines
  have met : entries.map Entry.node = nodes := by
    have statements : (roots program).map Prod.snd = program :=
      List.ext_getElem (by simp [roots]) (by simp [roots])
    rw [visits.nodes drawable, ← List.flatMap_map Prod.snd preorder, statements, ← preorderAll_eq]
  have hung : ∀ parent, drawing.below nodes parent =
      (hanging parent 1 entries).map fun inner => (inner.1, inner.2.1, some inner.2.2) := by
    intro parent
    rw [drawn, ← met, below_extended]
  have led : drawing.edges = (entries.zipIdx 1).map fun entry => ⟨entry.1.parent, entry.2, entry.1.part⟩ := by
    rw [drawn, edges_extended]
    rfl
  -- each property of the drawing is one of the entries that were visited
  refine ⟨Script.render_of_ok (drawProgram_eq wellFormed showLines) limits,
    Script.render_of_ok (programDrawing_eq wellFormed showLines) limits, ?_, ?_, ?_, ?_, ?_, ?_, ?_, ?_⟩
  · rw [drawn, vertices_numbered, met]
    simp only [shape_eq]
  · rw [← met, List.length_map, ← names_numbered showLines entries, ← drawn]
  · have apart := names_nodup showLines entries
    rwa [← drawn] at apart
  · rw [drawn]
    exact texts_nodup showLines entries
  · rw [led, List.map_map, ← met, List.length_map, ← List.zipIdx_map_snd 1 entries]
    rfl
  · intro edge listed
    rw [led] at listed
    obtain ⟨⟨entry, number⟩, place, rfl⟩ := List.mem_map.mp listed
    obtain ⟨first, found⟩ := List.mem_zipIdx_iff_le_and_getElem?_sub.mp place
    have bound := visits.parent_lt (Nat.le_refl _) found
    dsimp only at first bound ⊢
    omega
  · rw [hung, visits.hanging_parent drawable (Nat.le_refl _)]
  · intro index node found
    have entry : entries[index]?.map Entry.node = some node := by
      rw [← List.getElem?_map, met, found]
    obtain ⟨entry, placed, rfl⟩ := Option.map_eq_some_iff.mp entry
    have hangs := visits.hanging_entry drawable (Nat.le_refl _) placed
    rw [hung, ← Nat.zero_add 1, Nat.add_comm index, hangs]
    congr 2
    omega

/-- The vertices of the call come between those of the condition and of the `else`, and the `return` has no
part. -/
theorem drawing_is_tree_branches :
    let call : Node := .call 1 (.reference 1 "f") [.literal 1 .null]
    let program := [.ifStmt 1 (.reference 1 "a") (.exprStmt 1 call) (.returnStmt 1 .absent)]
    let below := (ofProgram true program).below (preorderAll program)
    Script.parse ⟨64, 9⟩ "if (a) f(null); else return;" = .ok program ∧
      below 1 = [(2, "cond", some (.reference 1 "a")), (3, "then", some (.exprStmt 1 call)),
        (7, "else", some (.returnStmt 1 .absent))] ∧
      below 4 = [(5, "callee", some (.reference 1 "f")), (6, "arg[0]", some (.literal 1 .null))] ∧
      below 7 = [] := by
  intro call program below
  have parsed : Script.parse ⟨64, 9⟩ "if (a) f(null); else return;" = .ok program := by
    dsimp only [program, call]
    cbv
  obtain ⟨-, -, -, -, -, -, -, -, -, each⟩ := drawing_is_tree parsed true
  exact ⟨parsed, each 0 _ rfl, each 3 _ rfl, each 6 _ rfl⟩

end Drawing

end Scriptlet
