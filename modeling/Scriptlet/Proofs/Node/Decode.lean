import Scriptlet.Node.Encode
import Scriptlet.Proofs.Json.Reading
import Scriptlet.Proofs.Node.Parts

/-! The JSON value of a tree can be turned back into the tree. -/
namespace Scriptlet

/-- The plain value that a JSON value stands for. -/
def Scalar.ofJson? : Json → Option Scalar
  | .null => some .null
  | .bool value => some (.bool value)
  | .number value => some (.number value)
  | .integer value => some (.integer value)
  | .string value => some (.text value)
  | _ => none

theorem Scalar.ofJson?_toJson (value : Scalar) : ofJson? value.toJson = some value := by
  cases value <;> rfl

namespace Node

def nameOfJson? : Json → Option String
  | .string name => some name
  | _ => none

mutual

/-- The tree that a JSON value stands for. -/
def ofJson? (json : Json) : Option Node :=
  match json with
  | .null => some absent
  | .object (("node_type", .string title) :: fields) =>
    match title, fields with
    | "Literal", [("value", value), ("line", .integer line)] =>
      return .literal line (← Scalar.ofJson? value)
    | "BinaryOp", [("operator", .string operator), ("left", left), ("right", right),
        ("line", .integer line)] =>
      return .binary line operator (← ofJson? left) (← ofJson? right)
    | "UnaryOp", [("operator", .string operator), ("right", right), ("line", .integer line)] =>
      return .unary line operator (← ofJson? right)
    | "Variable", [("name", .string name), ("line", .integer line)] => some (.reference line name)
    | "Assignment", [("name", .string name), ("value", value), ("line", .integer line)] =>
      return .assignment line name (← ofJson? value)
    | "Call", [("callee", callee), ("arguments", .array arguments), ("line", .integer line)] =>
      return .call line (← ofJson? callee) (← ofJsonAll? arguments)
    | "MatchCase", [("pattern", pattern), ("body", body), ("line", .integer line)] =>
      return .matchArm line (← ofJson? pattern) (← ofJson? body)
    | "Match", [("subject", subject), ("cases", .array arms), ("line", .integer line)] =>
      return .matching line (← ofJson? subject) (← ofJsonAll? arms)
    | "ExprStmt", [("expression", expression), ("line", .integer line)] =>
      return .exprStmt line (← ofJson? expression)
    | "VarDecl", [("name", .string name), ("initializer", initializer), ("line", .integer line)] =>
      return .varDecl line name (← ofJson? initializer)
    | "Print", [("expression", expression), ("line", .integer line)] =>
      return .printStmt line (← ofJson? expression)
    | "If", [("condition", condition), ("then", thenBranch), ("else", elseBranch),
        ("line", .integer line)] =>
      return .ifStmt line (← ofJson? condition) (← ofJson? thenBranch) (← ofJson? elseBranch)
    | "While", [("condition", condition), ("body", body), ("line", .integer line)] =>
      return .whileStmt line (← ofJson? condition) (← ofJson? body)
    | "For", [("initializer", initializer), ("condition", condition), ("increment", increment),
        ("body", body), ("line", .integer line)] =>
      return .forStmt line (← ofJson? initializer) (← ofJson? condition) (← ofJson? increment)
        (← ofJson? body)
    | "Block", [("statements", .array statements), ("line", .integer line)] =>
      return .block line (← ofJsonAll? statements)
    | "FunctionDecl", [("name", .string name), ("params", .array params), ("body", body),
        ("line", .integer line)] =>
      return .fnDecl line name (← params.mapM nameOfJson?) (← ofJson? body)
    | "Return", [("value", value), ("line", .integer line)] =>
      return .returnStmt line (← ofJson? value)
    | _, _ => none
  | _ => none
termination_by structural json

def ofJsonAll? (items : List Json) : Option (List Node) :=
  match items with
  | [] => some []
  | item :: rest => return (← ofJson? item) :: (← ofJsonAll? rest)
termination_by structural items

end

/-- The program that a JSON value stands for. -/
def programOfJson? : Json → Option (List Node)
  | .object [("node_type", .string "Program"), ("statements", .array statements)] =>
    ofJsonAll? statements
  | _ => none

/-- Whether the value of a literal can be read back from its text. -/
def PlainLiteral : Node → Prop
  | .literal _ value => value.toJson.Readable
  | _ => True

/-- A JSON value that stands for a tree. It can be read back from its text if all literals can. -/
structure Stands (json : Json) (node : Node) : Prop where
  decoded : ofJson? json = some node
  readable : Throughout PlainLiteral node → json.Readable

/-- A tree whose JSON value, where it has one, stands for the tree. -/
def Decodes (node : Node) : Prop :=
  ∀ {json}, toJson node = .ok json → Stands json node

variable {node part other : Node} {nodes : List Node} {json otherJson whole : Json} {items : List Json}

theorem names_decode (names : List String) : (names.map Json.string).mapM nameOfJson? = some names := by
  induction names with
  | nil => rfl
  | cons name rest ih => simp [nameOfJson?, ih]

theorem encoded_bind {first : Except RenderError α} {rest : α → Except RenderError β}
    (encoded : first >>= rest = .ok result) : ∃ value, first = .ok value ∧ rest value = .ok result := by
  cases first with
  | error => cases encoded
  | ok value => exact ⟨value, rfl, encoded⟩

/-- A tree with one part. -/
theorem Stands.one (make : Node → Node) (below : ∀ inner ∈ children (make part), Decodes inner)
    (encoded : toJson part = .ok json) (shape : children (make part) = [part])
    (decode : ofJson? whole = do return make (← ofJson? json))
    (plain : json.Readable → whole.Readable) : Stands whole (make part) := by
  have child : part ∈ children (make part) := by simp [shape]
  have stands := below part child encoded
  refine ⟨?_, fun throughout => plain (stands.readable (throughout.child child))⟩
  rw [decode, stands.decoded]
  rfl

/-- A tree with two parts. -/
theorem Stands.two (make : Node → Node → Node)
    (below : ∀ inner ∈ children (make part other), Decodes inner) (encoded : toJson part = .ok json)
    (otherEncoded : toJson other = .ok otherJson) (shape : children (make part other) = [part, other])
    (decode : ofJson? whole = do return make (← ofJson? json) (← ofJson? otherJson))
    (plain : json.Readable → otherJson.Readable → whole.Readable) : Stands whole (make part other) := by
  have child : part ∈ children (make part other) := by simp [shape]
  have otherChild : other ∈ children (make part other) := by simp [shape]
  have stands := below part child encoded
  have otherStands := below other otherChild otherEncoded
  refine ⟨?_, fun throughout => ?_⟩
  · rw [decode, stands.decoded, otherStands.decoded]
    rfl
  · have ofFirst := stands.readable (throughout.child child)
    have ofSecond := otherStands.readable (throughout.child otherChild)
    exact plain ofFirst ofSecond

theorem toJsonAll_stands (each : ∀ node ∈ nodes, Decodes node) (encoded : toJsonAll nodes = .ok items) :
    ofJsonAll? items = some nodes ∧
      ((∀ node ∈ nodes, Throughout PlainLiteral node) → ∀ item ∈ items, item.Readable) := by
  induction nodes generalizing items with
  | nil =>
    cases encoded
    exact ⟨rfl, by simp⟩
  | cons node rest ih =>
    obtain ⟨json, first, encoded⟩ := encoded_bind encoded
    obtain ⟨list, encodedRest, ⟨⟩⟩ := encoded_bind encoded
    have stands := each node (by simp) first
    obtain ⟨decoded, readable⟩ := ih (fun other listed => each other (by simp [listed])) encodedRest
    refine ⟨?_, fun throughout => List.forall_mem_cons.mpr ⟨?_, ?_⟩⟩
    · rw [ofJsonAll?, stands.decoded, decoded]
      rfl
    · exact stands.readable (throughout node (by simp))
    · exact readable fun other listed => throughout other (by simp [listed])

/-- A tree with one part and a list of parts. -/
theorem Stands.listed (make : Node → List Node → Node)
    (below : ∀ inner ∈ children (make part nodes), Decodes inner)
    (encoded : toJson part = .ok json) (encodedAll : toJsonAll nodes = .ok items)
    (shape : children (make part nodes) = part :: nodes)
    (decode : ofJson? whole = do return make (← ofJson? json) (← ofJsonAll? items))
    (plain : json.Readable → (∀ item ∈ items, item.Readable) → whole.Readable) :
    Stands whole (make part nodes) := by
  have child : part ∈ children (make part nodes) := by simp [shape]
  have children (inner) (listed : inner ∈ nodes) : inner ∈ children (make part nodes) := by
    simp [shape, listed]
  have stands := below part child encoded
  obtain ⟨decoded, readable⟩ :=
    toJsonAll_stands (fun inner listed => below inner (children inner listed)) encodedAll
  refine ⟨?_, fun throughout => ?_⟩
  · rw [decode, stands.decoded, decoded]
    rfl
  · have ofFirst := stands.readable (throughout.child child)
    exact plain ofFirst (readable fun inner listed => throughout.child (children inner listed))

/-- The JSON value of a tree stands for the tree, by induction on what is below. -/
theorem decodes (node : Node) : Decodes node := by
  induction node using below_induction with
  | step node below =>
    intro json encoded
    cases node with
    | literal line value =>
      cases encoded
      refine ⟨?_, fun throughout => ?_⟩
      · -- the equations of the decoder are too large to rewrite with, but it computes
        change (do return Node.literal line (← Scalar.ofJson? value.toJson)) = _
        rw [Scalar.ofJson?_toJson]
        rfl
      · have plain : value.toJson.Readable := throughout.here
        simpa [entry] using plain
    | reference =>
      cases encoded
      exact ⟨rfl, by simp [entry]⟩
    | unary line operator operand =>
      obtain ⟨inner, part, ⟨⟩⟩ := encoded_bind encoded
      exact .one (.unary line operator) below part rfl rfl (by simp [entry])
    | assignment line name value =>
      obtain ⟨inner, part, ⟨⟩⟩ := encoded_bind encoded
      exact .one (.assignment line name) below part rfl rfl (by simp [entry])
    | exprStmt line expression =>
      obtain ⟨inner, part, ⟨⟩⟩ := encoded_bind encoded
      exact .one (.exprStmt line) below part rfl rfl (by simp [entry])
    | varDecl line name initializer =>
      obtain ⟨inner, part, ⟨⟩⟩ := encoded_bind encoded
      exact .one (.varDecl line name) below part rfl rfl (by simp [entry])
    | printStmt line expression =>
      obtain ⟨inner, part, ⟨⟩⟩ := encoded_bind encoded
      exact .one (.printStmt line) below part rfl rfl (by simp [entry])
    | returnStmt line value =>
      obtain ⟨inner, part, ⟨⟩⟩ := encoded_bind encoded
      exact .one (.returnStmt line) below part rfl rfl (by simp [entry])
    | binary line operator left right =>
      obtain ⟨first, part, encoded⟩ := encoded_bind encoded
      obtain ⟨second, other, ⟨⟩⟩ := encoded_bind encoded
      exact .two (.binary line operator) below part other rfl rfl (by simp +contextual [entry])
    | matchArm line pattern body =>
      obtain ⟨first, part, encoded⟩ := encoded_bind encoded
      obtain ⟨second, other, ⟨⟩⟩ := encoded_bind encoded
      exact .two (.matchArm line) below part other rfl rfl (by simp +contextual [entry])
    | whileStmt line condition body =>
      obtain ⟨test, part, encoded⟩ := encoded_bind encoded
      obtain ⟨inner, other, ⟨⟩⟩ := encoded_bind encoded
      exact .two (.whileStmt line) below part other rfl rfl (by simp +contextual [entry])
    | call line callee arguments =>
      obtain ⟨called, part, encoded⟩ := encoded_bind encoded
      obtain ⟨given, others, ⟨⟩⟩ := encoded_bind encoded
      exact .listed (.call line) below part others rfl rfl (by simp +contextual [entry])
    | matching line subject arms =>
      obtain ⟨matched, part, encoded⟩ := encoded_bind encoded
      obtain ⟨cases, others, ⟨⟩⟩ := encoded_bind encoded
      exact .listed (.matching line) below part others rfl rfl (by simp +contextual [entry])
    | ifStmt line condition thenBranch elseBranch =>
      obtain ⟨test, encodedTest, encoded⟩ := encoded_bind encoded
      obtain ⟨first, encodedThen, encoded⟩ := encoded_bind encoded
      obtain ⟨second, encodedElse, ⟨⟩⟩ := encoded_bind encoded
      have tested := below condition (by simp [children]) encodedTest
      have taken := below thenBranch (by simp [children]) encodedThen
      have skipped := below elseBranch (by simp [children]) encodedElse
      refine ⟨?_, fun throughout => ?_⟩
      · change (do return Node.ifStmt line (← ofJson? test) (← ofJson? first) (← ofJson? second)) = _
        rw [tested.decoded, taken.decoded, skipped.decoded]
        rfl
      · have plain : ∀ inner ∈ children _, Throughout PlainLiteral inner := fun _ => throughout.child
        simp only [children, List.forall_mem_cons] at plain
        obtain ⟨ofTest, ofThen, ofElse, -⟩ := plain
        simp [entry, tested.readable ofTest, taken.readable ofThen, skipped.readable ofElse]
    | forStmt line initializer condition increment body =>
      obtain ⟨start, encodedStart, encoded⟩ := encoded_bind encoded
      obtain ⟨test, encodedTest, encoded⟩ := encoded_bind encoded
      obtain ⟨step, encodedStep, encoded⟩ := encoded_bind encoded
      obtain ⟨inner, encodedBody, ⟨⟩⟩ := encoded_bind encoded
      have started := below initializer (by simp [children]) encodedStart
      have tested := below condition (by simp [children]) encodedTest
      have stepped := below increment (by simp [children]) encodedStep
      have repeated := below body (by simp [children]) encodedBody
      refine ⟨?_, fun throughout => ?_⟩
      · change (do
          return Node.forStmt line (← ofJson? start) (← ofJson? test) (← ofJson? step)
            (← ofJson? inner)) = _
        rw [started.decoded, tested.decoded, stepped.decoded, repeated.decoded]
        rfl
      · have plain : ∀ inner ∈ children _, Throughout PlainLiteral inner := fun _ => throughout.child
        simp only [children, List.forall_mem_cons] at plain
        obtain ⟨ofStart, ofTest, ofStep, ofBody, -⟩ := plain
        simp [entry, started.readable ofStart, tested.readable ofTest, stepped.readable ofStep,
          repeated.readable ofBody]
    | block line statements =>
      obtain ⟨items, all, ⟨⟩⟩ := encoded_bind encoded
      obtain ⟨decoded, readable⟩ := toJsonAll_stands below all
      refine ⟨?_, fun throughout => ?_⟩
      · change (do return Node.block line (← ofJsonAll? items)) = _
        rw [decoded]
        rfl
      · simpa [entry] using readable fun inner child => throughout.child child
    | fnDecl line name params body =>
      obtain ⟨inner, encodedBody, ⟨⟩⟩ := encoded_bind encoded
      have stands := below body (by simp [children]) encodedBody
      refine ⟨?_, fun throughout => ?_⟩
      · change (do
          return Node.fnDecl line name (← (params.map Json.string).mapM nameOfJson?)
            (← ofJson? inner)) = _
        rw [names_decode, stands.decoded]
        rfl
      · simp [entry, stands.readable (throughout.child (by simp [children]))]
    | bare => cases encoded
    | atom value =>
      cases value with
      | null =>
        cases encoded
        exact ⟨rfl, fun _ => .null⟩
      | _ => cases encoded

theorem programToJson_decoded {program : List Node} (encoded : programToJson program = .ok json) :
    programOfJson? json = some program := by
  obtain ⟨items, all, ⟨⟩⟩ := encoded_bind encoded
  exact (toJsonAll_stands (fun node _ => decodes node) all).1

theorem toJsonAll_ok (each : ∀ node ∈ nodes, ∃ json, toJson node = .ok json) :
    ∃ list, toJsonAll nodes = .ok list := by
  induction nodes with
  | nil => exact ⟨_, rfl⟩
  | cons node rest ih =>
    obtain ⟨json, encoded⟩ := each node List.mem_cons_self
    obtain ⟨list, others⟩ := ih fun node member => each node (List.mem_cons_of_mem _ member)
    rw [toJsonAll, encoded, others]
    exact ⟨_, rfl⟩

/-- All that source text can stand for has a JSON form. -/
theorem WellFormed.toJson_ok (wellFormed : WellFormed role node) : ∃ json, toJson node = .ok json := by
  have absent : toJson .absent = .ok .null := rfl
  induction wellFormed with
  | literal | reference => exact ⟨_, rfl⟩
  | binary _ _ _ left right =>
    obtain ⟨first, left⟩ := left
    obtain ⟨second, right⟩ := right
    rw [toJson, left, right]
    exact ⟨_, rfl⟩
  | unary _ _ ih | assignment _ _ ih | exprStmt _ ih | printStmt _ ih | returnStmt _ ih
  | varDecl _ _ ih =>
    obtain ⟨json, encoded⟩ := ih
    rw [toJson, encoded]
    exact ⟨_, rfl⟩
  | call _ _ callee each =>
    obtain ⟨json, encoded⟩ := callee
    obtain ⟨list, given⟩ := toJsonAll_ok each
    rw [toJson, encoded, given]
    exact ⟨_, rfl⟩
  | matching arms _ _ _ subject patterns bodies =>
    obtain ⟨json, encoded⟩ := subject
    have each : ∀ node ∈ arms.map fun arm => matchArm arm.1 arm.2.1 arm.2.2,
        ∃ json, toJson node = .ok json := by
      intro node member
      obtain ⟨arm, listed, rfl⟩ := List.mem_map.mp member
      obtain ⟨first, pattern⟩ := patterns arm listed
      obtain ⟨second, body⟩ := bodies arm listed
      rw [toJson, pattern, body]
      exact ⟨_, rfl⟩
    obtain ⟨list, cases⟩ := toJsonAll_ok each
    rw [toJson, encoded, cases]
    exact ⟨_, rfl⟩
  | ifOnly _ _ condition branch =>
    obtain ⟨test, condition⟩ := condition
    obtain ⟨inner, branch⟩ := branch
    rw [toJson, condition, branch, absent]
    exact ⟨_, rfl⟩
  | ifElse _ _ _ _ condition branch otherwise =>
    obtain ⟨test, condition⟩ := condition
    obtain ⟨inner, branch⟩ := branch
    obtain ⟨other, otherwise⟩ := otherwise
    rw [toJson, condition, branch, otherwise]
    exact ⟨_, rfl⟩
  | whileStmt _ _ condition branch =>
    obtain ⟨test, condition⟩ := condition
    obtain ⟨inner, branch⟩ := branch
    rw [toJson, condition, branch]
    exact ⟨_, rfl⟩
  | block _ each =>
    obtain ⟨list, statements⟩ := toJsonAll_ok each
    rw [toJson, statements]
    exact ⟨_, rfl⟩
  | bareReturn | bareVar =>
    rw [toJson, absent]
    exact ⟨_, rfl⟩
  | statement _ ih => exact ih
  | fnDecl _ _ _ each =>
    obtain ⟨list, statements⟩ := toJsonAll_ok each
    rw [toJson, toJson, statements]
    exact ⟨_, rfl⟩

theorem Belongs.plainLiteral (belongs : Belongs node) : PlainLiteral node := by
  cases node with
  | literal line value =>
    have source : value.isSource := by
      cases belongs with
      | inRole wellFormed =>
        cases wellFormed with
        | literal source => exact source
        | statement inner => cases inner
    cases value with
    | null | bool => simp [PlainLiteral, Scalar.toJson]
    | number value => exact .number source
    | integer | text => cases source
  | _ => trivial

theorem WellFormedProgram.json_ok {program : List Node} (wellFormed : WellFormedProgram program) :
    ∃ json, programToJson program = .ok json := by
  obtain ⟨items, all⟩ := toJsonAll_ok fun node listed => (wellFormed node listed).toJson_ok
  rw [programToJson, all]
  exact ⟨_, rfl⟩

/-- The JSON value of a well-formed program reads back from its text. -/
theorem WellFormedProgram.json_readable {program : List Node} (wellFormed : WellFormedProgram program)
    (encoded : programToJson program = .ok json) : json.Readable := by
  obtain ⟨items, all, ⟨⟩⟩ := encoded_bind encoded
  have readable := (toJsonAll_stands (fun node _ => decodes node) all).2 fun node listed part inside =>
    Belongs.plainLiteral (.below inside (.inRole (wellFormed node listed)))
  simpa using readable

/-- Two parsed programs with the same JSON text are the same, lines included. -/
theorem text_injective {program other : List Node} (wellFormed : WellFormedProgram program)
    (otherWellFormed : WellFormedProgram other) (encoded : programToJson program = .ok json)
    (otherEncoded : programToJson other = .ok otherJson) (same : otherJson.text = json.text) :
    other = program := by
  have read := Json.read?_text (wellFormed.json_readable encoded)
  have otherRead := Json.read?_text (otherWellFormed.json_readable otherEncoded)
  rw [same, read] at otherRead
  obtain rfl := Option.some.inj otherRead
  exact Option.some.inj ((programToJson_decoded otherEncoded).symm.trans (programToJson_decoded encoded))

end Node
end Scriptlet
