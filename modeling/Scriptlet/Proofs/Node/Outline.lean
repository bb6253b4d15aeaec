import Mathlib
import Scriptlet.Proofs.Grammar.Image
import Scriptlet.Proofs.Node.Heading

/-! The outline of a program determines the program. Each line says what its node holds, and where its column
and its role place the node below the nodes of the lines above. -/
namespace Scriptlet.Node

/-- A line of an outline before it is written. -/
structure Row where
  column : Nat
  role : String
  title : String

def Row.line (row : Row) : String :=
  outlineLine row.column row.role row.title

/-- Where the trees below a node stand: how many columns further in, and in which role. -/
def place : NodeKind → Nat → Nat × String
  | .binary, 0 => (2, "left: ")
  | .binary, _ => (2, "right: ")
  | .assignment, _ | .returnStmt, _ => (2, "value: ")
  | .call, 0 => (2, "callee: ")
  | .call, index + 1 => (4, item "arg" index)
  | .matchArm, 0 => (2, "pattern: ")
  | .matchArm, _ => (2, "body: ")
  | .matching, 0 => (2, "subject: ")
  | .matching, index + 1 => (4, item "case" index)
  | .varDecl, _ => (2, "init: ")
  | .ifStmt, 0 | .whileStmt, 0 => (4, "condition: ")
  | .ifStmt, 1 => (4, "then: ")
  | .ifStmt, _ => (4, "else: ")
  | .whileStmt, _ | .fnDecl, _ => (4, "body: ")
  | .block, index => (4, item "stmt" index)
  | _, _ => (2, "")

/-- The trees below a node of a kind, from the given one on, are outlined as the rows. -/
inductive Outlined : (column : Nat) → NodeKind → (index : Nat) → List Node → List Row → Prop where
  | done : Outlined column kind index [] []
  | next {column index : Nat} {kind inner : NodeKind} {node : Node} {rest : List Node}
      {rows others : List Row} (isKind : node.kind? = some inner)
      (inside : Outlined (column + (place kind index).1) inner 0 (shown node) rows)
      (beside : Outlined column kind (index + 1) rest others) :
      Outlined column kind index (node :: rest)
        (⟨column + (place kind index).1, (place kind index).2, heading node⟩ :: (rows ++ others))

/-- What may come after the rows of a node: a row that is no further in, or the first argument after the
callee or the first arm after the subject, which are further in than it by two columns. -/
def Follows (column : Nat) (rows : List Row) : Prop :=
  ∀ row ∈ rows.head?, row.column ≤ column ∨
    row.column = column + 2 ∧ (row.role = item "arg" 0 ∨ row.role = item "case" 0)

variable {column index step : Nat} {kind : NodeKind} {nodes others : List Node} {rows tail otherTail : List Row}

theorem place_step (kind : NodeKind) (index : Nat) : 2 ≤ (place kind index).1 ∧ ((place kind index).1 = 2 →
    (place kind index).2 ≠ item "arg" 0 ∧ (place kind index).2 ≠ item "case" 0) := by
  unfold place
  split <;> first | decide | simp

theorem place_next (kind : NodeKind) (index : Nat) :
    (place kind (index + 1)).1 = (place kind index).1 ∨
      (place kind (index + 1)).1 = (place kind index).1 + 2 ∧
        ((place kind (index + 1)).2 = item "arg" 0 ∨ (place kind (index + 1)).2 = item "case" 0) := by
  cases kind with
  | binary | matchArm | whileStmt => cases index <;> exact .inl rfl
  | call => cases index <;> first | exact .inl rfl | exact .inr ⟨rfl, .inl rfl⟩
  | matching => cases index <;> first | exact .inl rfl | exact .inr ⟨rfl, .inr rfl⟩
  | ifStmt => rcases index with _ | _ | index <;> exact .inl rfl
  | _ => exact .inl rfl

theorem Follows.inside (follows : Follows column rows) (far : 2 ≤ step) : Follows (column + step) rows := by
  intro row first
  rcases follows row first with before | ⟨inner, -⟩
  · exact .inl (by omega)
  · exact .inl (by omega)

/-- After the rows of a node come those of the next one, or what follows them all. -/
theorem Outlined.follows (outlined : Outlined column kind (index + 1) nodes rows)
    (follows : Follows column tail) : Follows (column + (place kind index).1) (rows ++ tail) := by
  cases outlined with
  | done => exact follows.inside (place_step kind index).1
  | next =>
    intro row first
    cases first
    dsimp only
    rcases place_next kind index with same | ⟨further, role⟩
    · exact .inl (by omega)
    · exact .inr ⟨by omega, role⟩

/-- The first row below a node cannot be taken for one that comes after the node. -/
theorem Outlined.not_follows (outlined : Outlined column kind index nodes rows)
    (follows : Follows column (rows ++ tail)) : nodes = [] := by
  cases outlined with
  | done => rfl
  | next =>
    obtain ⟨far, role⟩ := place_step kind index
    rcases follows _ rfl with before | ⟨further, isRole⟩
    · dsimp only at before
      omega
    · have two : (place kind index).1 = 2 := by
        dsimp only at further
        omega
      exact absurd isRole (not_or.mpr (role two))

theorem relinedAll_cons_injective {line : Int} {first second : Node} {rest others : List Node}
    (head : relined line first = relined line second)
    (tail : relinedAll line rest = relinedAll line others) :
    relinedAll line (first :: rest) = relinedAll line (second :: others) := by
  rw [relinedAll, relinedAll, head, tail]

/-- The rows determine the trees up to their lines, and where the rows of the trees end. By induction on
the rows: the first rows have the same heading, the trees below them the same rows, and so on. -/
theorem Outlined.determines {otherRows : List Row} (outlined : Outlined column kind index nodes rows)
    (otherOutlined : Outlined column kind index others otherRows)
    (belong : ∀ node ∈ nodes, Belongs node) (otherBelong : ∀ node ∈ others, Belongs node)
    (follows : Follows column tail) (otherFollows : Follows column otherTail)
    (same : rows ++ tail = otherRows ++ otherTail) :
    relinedAll 1 nodes = relinedAll 1 others ∧ tail = otherTail := by
  induction outlined generalizing others otherRows tail otherTail with
  | done =>
    rw [List.nil_append] at same
    subst same
    obtain rfl := otherOutlined.not_follows follows
    cases otherOutlined with
    | done => exact ⟨rfl, rfl⟩
  | @next column index kind inner node rest rows beyond isKind inside beside insideIh besideIh =>
    cases otherOutlined with
    | done =>
      rw [List.nil_append] at same
      subst same
      cases (Outlined.next isKind inside beside).not_follows otherFollows
    | @next _ _ _ otherInner other otherRest otherRows otherBeyond otherIsKind otherInside otherBeside =>
      obtain ⟨belongs, restBelong⟩ := List.forall_mem_cons.mp belong
      obtain ⟨otherBelongs, otherRestBelong⟩ := List.forall_mem_cons.mp otherBelong
      rw [List.cons_append, List.cons_append, List.append_assoc, List.append_assoc] at same
      injection same with head below
      injection head with _ _ headings
      obtain ⟨rfl, shells⟩ := shell_injective belongs.legible otherBelongs.legible isKind otherIsKind headings
      have below_belong : ∀ {node : Node}, Belongs node → ∀ inner ∈ shown node, Belongs inner :=
        fun belongs inner listed => belongs.child inner (List.mem_filter.mp listed).1
      -- what follows the rows below is the row of the next node, so they end at the same place
      obtain ⟨shownSame, onward⟩ := insideIh otherInside (below_belong belongs) (below_belong otherBelongs)
        (beside.follows follows) (otherBeside.follows otherFollows) below
      obtain ⟨restSame, tails⟩ := besideIh otherBeside restBelong otherRestBelong follows otherFollows onward
      refine ⟨relinedAll_cons_injective ?_ restSame, tails⟩
      rw [← filled_shell belongs, ← filled_shell otherBelongs, shells, shownSame]

/-- The lines of trees below a node. -/
def placedLines (column : Int) (kind : NodeKind) : Nat → List Node → List String
  | _, [] => []
  | index, node :: rest =>
    outlineLines (column + (place kind index).1) (place kind index).2 node ++
      placedLines column kind (index + 1) rest

theorem outlineItems_eq (column : Int) (kind : NodeKind) (part : String) (before : Nat)
    (same : ∀ index, place kind (index + before) = (4, item part index)) (nodes : List Node) (index : Nat) :
    outlineItems (column + 4) part index nodes = placedLines column kind (index + before) nodes := by
  induction nodes generalizing index with
  | nil => rfl
  | cons node rest ih =>
    rw [outlineItems, placedLines, ih, same, Nat.add_right_comm]
    rfl

/-- One level of the outline of a tree. -/
theorem outlineLines_eq {node : Node} (belongs : Belongs node) (isKind : node.kind? = some kind)
    (column : Int) (role : String) :
    outlineLines column role node =
      outlineLine column role (heading node) :: placedLines column kind 0 (shown node) := by
  have missing : isAbsent absent = true := rfl
  have hidden : isShown absent = false := rfl
  have listedArguments := outlineItems_eq column .call "arg" 1 fun _ => rfl
  have listedArms := outlineItems_eq column .matching "case" 1 fun _ => rfl
  have listedStatements := outlineItems_eq column .block "stmt" 0 fun _ => rfl
  cases belongs with
  | absent => cases isKind
  | arm pattern body =>
    cases isKind
    simp [outlineLines, heading, kind?, opening, bracketed, shown, children, placedLines, place,
      pattern.present, body.present]
  | inRole wellFormed =>
    induction wellFormed with
    | statement _ ih => exact ih isKind
    | literal | reference | bareReturn | bareVar =>
      cases isKind
      simp [outlineLines, heading, kind?, opening, bracketed, shown, children, placedLines, missing, hidden,
        ← String.append_assoc]
    | binary _ left right | whileStmt left right =>
      cases isKind
      simp [outlineLines, heading, kind?, opening, bracketed, shown, children, placedLines, place,
        left.present, right.present, ← String.append_assoc]
    | unary _ part | assignment _ part | exprStmt part | printStmt part =>
      cases isKind
      simp [outlineLines, heading, kind?, opening, bracketed, shown, children, placedLines, place,
        part.present, ← String.append_assoc]
    | returnStmt part =>
      cases isKind
      simp [outlineLines, heading, kind?, opening, bracketed, shown, children, placedLines, place,
        part.present, part.isShown]
    | varDecl _ part =>
      cases isKind
      have text : " = ...)" = " = ..." ++ ")" := rfl
      simp [outlineLines, heading, kind?, opening, bracketed, shown, children, placedLines, place,
        part.present, part.isShown, ← String.append_assoc]
      rw [text, ← String.append_assoc]
    | ifOnly condition branch =>
      cases isKind
      simp [outlineLines, heading, kind?, opening, bracketed, shown, children, placedLines, place,
        condition.present, branch.present, missing, hidden]
    | ifElse condition branch _ other =>
      cases isKind
      simp [outlineLines, heading, kind?, opening, bracketed, shown, children, placedLines, place,
        condition.present, branch.present, other.present, other.isShown]
    | call callee each =>
      cases isKind
      rw [shown_eq_children]
      · simp [outlineLines, heading, kind?, opening, bracketed, children, placedLines, place, listedArguments]
      · exact List.forall_mem_cons.mpr ⟨callee.present, fun part listed => (each part listed).present⟩
    | matching arms subject =>
      cases isKind
      rw [shown_eq_children]
      · simp [outlineLines, heading, kind?, opening, bracketed, children, placedLines, place, listedArms]
      · exact List.forall_mem_cons.mpr ⟨subject.present, List.forall_mem_map.mpr fun _ _ => rfl⟩
    | block each =>
      cases isKind
      rw [shown_eq_children]
      · simp [outlineLines, heading, kind?, opening, bracketed, children, listedStatements]
      · exact fun part listed => (each part listed).present
    | fnDecl =>
      cases isKind
      have text : "])" = "]" ++ ")" := rfl
      simp [outlineLines, heading, kind?, opening, bracketed, shown, children, placedLines, place, isAbsent,
        ← String.append_assoc]
      rw [text, ← String.append_assoc]

variable {node : Node}

theorem Belongs.exists_kind (belongs : Belongs node) (present : node.isAbsent = false) :
    ∃ kind, node.kind? = some kind := by
  cases belongs with
  | absent => cases present
  | arm => exact ⟨_, rfl⟩
  | inRole wellFormed =>
    induction wellFormed with
    | statement _ ih => exact ih present
    | _ => exact ⟨_, rfl⟩

theorem shown_belong (belongs : Belongs node) :
    ∀ inner ∈ shown node, Belongs inner ∧ inner.isAbsent = false := by
  intro inner listed
  obtain ⟨child, present⟩ := List.mem_filter.mp listed
  exact ⟨belongs.child inner child, by simpa using present⟩

/-- A tree whose outline is a row for itself and the rows of the trees below it. -/
def HasRows (node : Node) : Prop :=
  ∃ kind, node.kind? = some kind ∧ ∀ (column : Nat) role, ∃ rows,
    Outlined column kind 0 (shown node) rows ∧
      outlineLines column role node = (⟨column, role, heading node⟩ :: rows).map Row.line

theorem placedLines_rows (each : ∀ node ∈ nodes, HasRows node) (column : Nat) (kind : NodeKind)
    (index : Nat) : ∃ rows, Outlined column kind index nodes rows ∧
      placedLines column kind index nodes = rows.map Row.line := by
  induction nodes generalizing index with
  | nil => exact ⟨[], .done, rfl⟩
  | cons node rest ih =>
    obtain ⟨inner, isKind, outlined⟩ := each node (by simp)
    obtain ⟨rows, inside, lines⟩ := outlined (column + (place kind index).1) (place kind index).2
    obtain ⟨others, beside, onward⟩ := ih (fun other listed => each other (by simp [listed])) (index + 1)
    refine ⟨_, .next isKind inside beside, ?_⟩
    rw [Nat.cast_add] at lines
    rw [placedLines, lines, onward, ← List.map_append, List.cons_append]

theorem hasRows (node : Node) (belongs : Belongs node) (present : node.isAbsent = false) : HasRows node := by
  induction node using below_induction with
  | step node ih =>
    obtain ⟨kind, isKind⟩ := belongs.exists_kind present
    refine ⟨kind, isKind, fun column role => ?_⟩
    have each : ∀ inner ∈ shown node, HasRows inner := by
      intro inner listed
      obtain ⟨innerBelongs, innerPresent⟩ := shown_belong belongs inner listed
      exact ih inner (List.mem_filter.mp listed).1 innerBelongs innerPresent
    obtain ⟨rows, outlined, lines⟩ := placedLines_rows each column kind 0
    refine ⟨rows, outlined, ?_⟩
    rw [outlineLines_eq belongs isKind, lines]
    rfl

/-- What the role of a row may be: no capital letter, no line break and no space in front. -/
def PlainRole (role : String) : Prop :=
  (∀ c ∈ role.toList, c.isUpper = false ∧ c ≠ '\n') ∧ ∀ c ∈ role.toList.head?, c ≠ ' '

instance (role : String) : Decidable (PlainRole role) :=
  @instDecidableAnd _ _ (List.decidableBAll _ _) (Option.decidableForallMem _)

/-- A row whose line shows where the role ends, as the title starts with a capital letter. -/
structure Row.Plain (row : Row) : Prop where
  role : PlainRole row.role
  capital : ∃ first ∈ row.title.toList.head?, first.isUpper
  unbroken : '\n' ∉ row.title.toList

theorem Row.line_chars (row : Row) :
    row.line.toList = List.replicate row.column ' ' ++ (row.role.toList ++ row.title.toList) := by
  simp [line, outlineLine]

theorem Row.Plain.line_injective {first second : Row} (plain : first.Plain) (otherPlain : second.Plain)
    (same : first.line = second.line) : first = second := by
  have spaces : ∀ count : Nat, ∀ c ∈ List.replicate count ' ', (c == ' ') = true := by
    intro count c member
    rw [List.eq_of_mem_replicate member]
    rfl
  have starts : ∀ row : Row, row.Plain → ∀ c ∈ row.title.toList.head?, c.isUpper = true := by
    intro row plain c first
    obtain ⟨capital, head, upper⟩ := plain.capital
    cases Option.some.inj (first.symm.trans head)
    exact upper
  have ends : ∀ row : Row, row.Plain → ∀ c ∈ (row.role.toList ++ row.title.toList).head?,
      (c == ' ') = false := by
    intro row plain c first
    cases none : row.role.toList with
    | nil =>
      rw [none, List.nil_append] at first
      have upper := starts row plain c first
      rw [beq_eq_false_iff_ne]
      rintro rfl
      exact absurd upper (by decide)
    | cons head rest =>
      rw [none] at first
      exact beq_eq_false_iff_ne.mpr (plain.role.2 c (by rw [none]; exact first))
  have chars := congrArg String.toList same
  rw [Row.line_chars, Row.line_chars] at chars
  obtain ⟨columns, texts⟩ := run_injective (spaces _) (spaces _) (ends _ plain) (ends _ otherPlain) chars
  have lower : ∀ row : Row, row.Plain → ∀ c ∈ row.role.toList, (!c.isUpper) = true :=
    fun row plain c member => by simp [(plain.role.1 c member).1]
  have upper : ∀ row : Row, row.Plain → ∀ c ∈ row.title.toList.head?, (!c.isUpper) = false :=
    fun row plain c head => by simp [starts row plain c head]
  obtain ⟨roles, titles⟩ := run_injective (lower _ plain) (lower _ otherPlain) (upper _ plain)
    (upper _ otherPlain) texts
  obtain ⟨column, role, title⟩ := first
  obtain ⟨otherColumn, otherRole, otherTitle⟩ := second
  cases String.toList_inj.mp roles
  cases String.toList_inj.mp titles
  have same := congrArg List.length columns
  rw [List.length_replicate, List.length_replicate] at same
  cases same
  rfl

theorem Row.Plain.line_unbroken {row : Row} (plain : row.Plain) : '\n' ∉ row.line.toList := by
  rw [Row.line_chars, List.mem_append, List.mem_append]
  rintro (space | role | title)
  · cases List.eq_of_mem_replicate space
  · exact (plain.role.1 _ role).2 rfl
  · exact plain.unbroken title

theorem Row.Plain.line_ne_empty {row : Row} (plain : row.Plain) : row.line ≠ "" := by
  intro empty
  obtain ⟨first, head, -⟩ := plain.capital
  have chars := row.line_chars
  rw [empty] at chars
  have none := (List.append_eq_nil_iff.mp (List.append_eq_nil_iff.mp chars.symm).2).2
  rw [none] at head
  cases head

theorem item_plain {part : String} (plain : PlainRole part) (some : part.toList ≠ []) (index : Nat) :
    PlainRole (item part index) := by
  have text : (item part index).toList = part.toList ++ ('[' :: Nat.toDigits 10 index ++ "]: ".toList) := by
    simp [item, Nat.toString_eq_repr, Nat.toList_repr]
  unfold PlainRole
  rw [text]
  refine ⟨fun c member => ?_, fun c first => plain.2 c (by rwa [List.head?_append_of_ne_nil _ some] at first)⟩
  rw [List.mem_append, List.cons_append, List.mem_cons, List.mem_append] at member
  rcases member with inside | rfl | digit | after
  · exact plain.1 c inside
  · decide
  · have size := (Number.isDigit_iff c).mp (Number.toDigits_digits index c digit)
    have small : ¬ 65 ≤ c.val := by
      intro above
      have : 65 ≤ c.toNat := above
      omega
    constructor
    · simp [Char.isUpper, small]
    · rintro rfl
      exact absurd size (by decide)
  · have rest : ∀ c ∈ [']', ':', ' '], c.isUpper = false ∧ c ≠ '\n' := by
      simp only [List.forall_mem_cons, List.not_mem_nil, false_implies, implies_true, and_true]
      decide
    exact rest c after

theorem place_plain (kind : NodeKind) (index : Nat) : PlainRole (place kind index).2 := by
  unfold place
  split
  case h_6 | h_10 | h_18 => exact item_plain (by decide) (by decide) _
  all_goals decide

/-- The rows of an outline are such that their lines show them. -/
theorem Outlined.plain (outlined : Outlined column kind index nodes rows)
    (belong : ∀ node ∈ nodes, Belongs node) : ∀ row ∈ rows, row.Plain := by
  induction outlined with
  | done => exact List.forall_mem_nil _
  | @next column index kind inner node rest rows others isKind _ _ insideIh besideIh =>
    obtain ⟨belongs, restBelong⟩ := List.forall_mem_cons.mp belong
    refine List.forall_mem_cons.mpr ⟨⟨place_plain kind index, ?_, heading_unbroken belongs⟩, ?_⟩
    · obtain ⟨first, head, upper⟩ := (opening_alpha inner).2
      refine ⟨first, ?_, upper⟩
      have text : (heading node).toList.head? = (opening inner).toList.head? := by
        rw [heading, isKind, String.toList_append, Option.elim_some]
        refine List.head?_append_of_ne_nil _ fun none => ?_
        rw [none] at head
        cases head
      rw [text]
      exact head
    · intro row listed
      rcases List.mem_append.mp listed with inside | beside
      · exact insideIh (fun inner listed => (shown_belong belongs inner listed).1) row inside
      · exact besideIh restBelong row beside

/-- Lines, each after a line break. -/
def brokenLines (lines : List String) : List Char :=
  lines.flatMap fun line => '\n' :: line.toList

theorem brokenLines_injective {lines otherLines : List String} (unbroken : ∀ line ∈ lines, '\n' ∉ line.toList)
    (otherUnbroken : ∀ line ∈ otherLines, '\n' ∉ line.toList)
    (same : brokenLines lines = brokenLines otherLines) : lines = otherLines := by
  have solid : ∀ {line : String}, '\n' ∉ line.toList → ∀ c ∈ line.toList, (c != '\n') = true := by
    intro line unbroken c member
    rw [bne_iff_ne]
    rintro rfl
    exact unbroken member
  have ends : ∀ lines : List String, ∀ c ∈ (brokenLines lines).head?, (c != '\n') = false := by
    intro lines c first
    cases lines with
    | nil => cases first
    | cons line rest =>
      cases first
      rfl
  induction lines generalizing otherLines with
  | nil =>
    cases otherLines with
    | nil => rfl
    | cons line rest => cases same
  | cons line rest ih =>
    cases otherLines with
    | nil => cases same
    | cons other others =>
      obtain ⟨lineUnbroken, restUnbroken⟩ := List.forall_mem_cons.mp unbroken
      obtain ⟨otherLineUnbroken, othersUnbroken⟩ := List.forall_mem_cons.mp otherUnbroken
      obtain ⟨texts, tails⟩ := run_injective (solid lineUnbroken) (solid otherLineUnbroken) (ends rest)
        (ends others) (List.cons.inj same).2
      rw [String.toList_inj.mp texts, ih restUnbroken othersUnbroken tails]

theorem intercalate_chars (first : String) (rest : List String) :
    ("\n".intercalate (first :: rest)).toList = first.toList ++ brokenLines rest := by
  induction rest generalizing first with
  | nil => simp [brokenLines]
  | cons second rest ih =>
    have onward := ih second
    rw [String.toList_intercalate] at onward ⊢
    simp only [List.map_cons, List.intercalate_cons_cons] at onward ⊢
    rw [onward]
    simp [brokenLines]

theorem placedLines_plain (belong : ∀ node ∈ nodes, Belongs node ∧ node.isAbsent = false) (column : Nat)
    (kind : NodeKind) (index : Nat) : ∃ rows, Outlined column kind index nodes rows ∧
      placedLines column kind index nodes = rows.map Row.line ∧ ∀ row ∈ rows, row.Plain := by
  have each : ∀ node ∈ nodes, HasRows node :=
    fun node listed => hasRows node (belong node listed).1 (belong node listed).2
  obtain ⟨rows, outlined, lines⟩ := placedLines_rows each column kind index
  exact ⟨rows, outlined, lines, outlined.plain fun node listed => (belong node listed).1⟩

/-- A statement of a program is outlined like one of a block. -/
theorem outline_statement (belongs : Belongs node) (present : node.isAbsent = false) (index : Nat) :
    '\n' :: (outline 4 (item "stmt" index) node).toList = brokenLines (placedLines 0 .block index [node]) := by
  obtain ⟨rows, outlined, lines, plain⟩ := placedLines_plain
    (List.forall_mem_singleton.mpr ⟨belongs, present⟩ :
      ∀ inner ∈ [node], Belongs inner ∧ inner.isAbsent = false) 0 .block index
  have kept : (rows.map Row.line).filter (· != "") = rows.map Row.line := by
    refine List.filter_eq_self.mpr (List.forall_mem_map.mpr fun row listed => ?_)
    exact bne_iff_ne.mpr (plain row listed).line_ne_empty
  have whole : outlineLines 4 (item "stmt" index) node = rows.map Row.line := by
    rw [← lines, placedLines, placedLines, List.append_nil]
    rfl
  have text : outline 4 (item "stmt" index) node = "\n".intercalate (rows.map Row.line) := by
    cases node with
    | atom => 
      obtain ⟨kind, isKind⟩ := belongs.exists_kind present
      cases isKind
    | _ => rw [outline, whole, kept]; simp
  change _ = brokenLines (placedLines ((0 : Nat) : Int) .block index [node])
  rw [text, lines]
  cases outlined with
  | next => rw [List.map_cons, intercalate_chars]; rfl

theorem brokenLines_programOutlines {program : List Node}
    (belong : ∀ node ∈ program, Belongs node ∧ node.isAbsent = false) (index : Nat) :
    brokenLines (programOutlines index program) = brokenLines (placedLines 0 .block index program) := by
  induction program generalizing index with
  | nil => rfl
  | cons node rest ih =>
    obtain ⟨⟨belongs, present⟩, restBelong⟩ := List.forall_mem_cons.mp belong
    have head := outline_statement belongs present index
    have onward := ih restBelong (index + 1)
    simp only [placedLines, List.append_nil] at head
    simp only [programOutlines, placedLines, brokenLines, List.flatMap_cons, List.flatMap_append] at *
    rw [head, onward]

/-- Two programs that were parsed, from whatever sources, and that have the same outline are the same tree
up to the lines of their nodes. -/
theorem programOutline_determines {limits otherLimits : Limits} {source otherSource : String}
    {program other : List Node} (parsed : Script.parse limits source = .ok program)
    (otherParsed : Script.parse otherLimits otherSource = .ok other)
    (same : programOutline program = programOutline other) : SameButLines program other := by
  have belong : ∀ {limits source program}, Script.parse limits source = .ok program →
      ∀ node ∈ program, Belongs node ∧ node.isAbsent = false := by
    intro limits source program parsed node listed
    have wellFormed := Grammar.parse_wellFormed parsed node listed
    exact ⟨.inRole wellFormed, wellFormed.present⟩
  obtain ⟨rows, outlined, lines, plain⟩ := placedLines_plain (belong parsed) 0 .block 0
  obtain ⟨otherRows, otherOutlined, otherLines, otherPlain⟩ := placedLines_plain (belong otherParsed) 0 .block 0
  have chars := congrArg String.toList same
  rw [programOutline, programOutline, intercalate_chars, intercalate_chars,
    brokenLines_programOutlines (belong parsed), brokenLines_programOutlines (belong otherParsed)] at chars
  have broken := List.append_cancel_left chars
  rw [← Nat.cast_zero, lines, otherLines] at broken
  have texts := brokenLines_injective
    (List.forall_mem_map.mpr fun row listed => (plain row listed).line_unbroken)
    (List.forall_mem_map.mpr fun row listed => (otherPlain row listed).line_unbroken) broken
  have sameRows : rows = otherRows := by
    refine List.ext_getElem (by simpa using congrArg List.length texts) fun index first second => ?_
    have line : rows[index].line = otherRows[index].line := by
      simpa [first, second] using congrArg (·[index]?) texts
    exact (plain _ (List.getElem_mem first)).line_injective (otherPlain _ (List.getElem_mem second)) line
  subst sameRows
  have ends : Follows 0 [] := by simp [Follows]
  exact (outlined.determines otherOutlined (fun node listed => (belong parsed node listed).1)
    (fun node listed => (belong otherParsed node listed).1) ends ends rfl).1

/-- A call that is written on one line and on two. -/
theorem programOutline_determines_lines :
    Script.parse ⟨48, 9⟩ "f(null);" = .ok [.exprStmt 1 (.call 1 (.reference 1 "f") [.literal 1 .null])] ∧
      Script.parse ⟨48, 9⟩ "f\n(null);" =
        .ok [.exprStmt 1 (.call 2 (.reference 1 "f") [.literal 2 .null])] ∧
      SameButLines [.exprStmt 1 (.call 1 (.reference 1 "f") [.literal 1 .null])]
        [.exprStmt 1 (.call 2 (.reference 1 "f") [.literal 2 .null])] := by
  have parsed : Script.parse ⟨48, 9⟩ "f(null);" =
      .ok [.exprStmt 1 (.call 1 (.reference 1 "f") [.literal 1 .null])] := by
    cbv
  have otherParsed : Script.parse ⟨48, 9⟩ "f\n(null);" =
      .ok [.exprStmt 1 (.call 2 (.reference 1 "f") [.literal 2 .null])] := by
    clear parsed
    cbv
  exact ⟨parsed, otherParsed, programOutline_determines parsed otherParsed rfl⟩

end Scriptlet.Node
