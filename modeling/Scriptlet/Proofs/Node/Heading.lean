import Scriptlet.Node.Outline
import Scriptlet.Proofs.Node.Parts
import Scriptlet.Proofs.Number.ReadBack

/-! What the first line of the outline of a tree says: the kind of its node and all that the node holds
besides the trees below it. -/
namespace Scriptlet

open Lexeme

variable {run tail otherRun otherTail : List Char} {name other : String}

/-- Where a run of characters of one class ends can be seen. -/
theorem run_injective {keep : Char → Bool} (each : ∀ c ∈ run, keep c) (otherEach : ∀ c ∈ otherRun, keep c)
    (ends : ∀ c ∈ tail.head?, keep c = false) (otherEnds : ∀ c ∈ otherTail.head?, keep c = false)
    (same : run ++ tail = otherRun ++ otherTail) : run = otherRun ∧ tail = otherTail := by
  have runs := congrArg (List.takeWhile keep) same
  rw [takeWhile_run each ends, takeWhile_run otherEach otherEnds] at runs
  subst runs
  exact ⟨rfl, List.append_cancel_left same⟩

theorem isName_chars (named : isName name) : name.toList ≠ [] ∧ ∀ c ∈ name.toList, isWordChar c := by
  unfold isName at named
  split at named
  · cases named
  · rename_i first rest text
    rw [text]
    simp only [Bool.and_eq_true, List.all_eq_true] at named
    refine ⟨List.cons_ne_nil _ _, List.forall_mem_cons.mpr ⟨?_, named.1.2⟩⟩
    simp [isWordChar, named.1.1]

/-- What follows a name in a heading does not carry it on. -/
theorem name_injective (named : isName name) (otherNamed : isName other)
    (ends : ∀ c ∈ tail.head?, isWordChar c = false) (otherEnds : ∀ c ∈ otherTail.head?, isWordChar c = false)
    (same : name.toList ++ tail = other.toList ++ otherTail) : name = other ∧ tail = otherTail := by
  obtain ⟨names, tails⟩ := run_injective (isName_chars named).2 (isName_chars otherNamed).2 ends otherEnds same
  exact ⟨String.toList_inj.mp names, tails⟩

theorem commas_injective {names others : List String} (each : ∀ name ∈ names, isName name)
    (otherEach : ∀ name ∈ others, isName name) (same : ", ".intercalate names = ", ".intercalate others) :
    names = others := by
  -- After the first name there is nothing, or a comma, a space and the names that are left.
  have split : ∀ (first : String) (rest : List String), ∃ tail, (", ".intercalate (first :: rest)).toList =
      first.toList ++ tail ∧ (∀ c ∈ tail.head?, isWordChar c = false) ∧
        (rest = [] ∧ tail = [] ∨ rest ≠ [] ∧ tail = ',' :: ' ' :: (", ".intercalate rest).toList) := by
    intro first rest
    cases rest with
    | nil => exact ⟨[], by simp, by simp, .inl ⟨rfl, rfl⟩⟩
    | cons second rest =>
      refine ⟨_, ?_, ?_, .inr ⟨List.cons_ne_nil _ _, rfl⟩⟩
      · simp [String.toList_intercalate]
      · have comma : isWordChar ',' = false := by decide +kernel
        simp [comma]
  have nothing : ∀ first rest, isName first → ", ".intercalate [] ≠ ", ".intercalate (first :: rest) := by
    intro first rest named empty
    obtain ⟨tail, text, -⟩ := split first rest
    have none := congrArg String.toList empty
    rw [text] at none
    exact (isName_chars named).1 (List.append_eq_nil_iff.mp none.symm).1
  induction names generalizing others with
  | nil =>
    cases others with
    | nil => rfl
    | cons first rest => exact absurd same (nothing first rest (otherEach first (by simp)))
  | cons first rest ih =>
    cases others with
    | nil => exact absurd same.symm (nothing first rest (each first (by simp)))
    | cons second others =>
      obtain ⟨tail, text, ends, shape⟩ := split first rest
      obtain ⟨otherTail, otherText, otherEnds, otherShape⟩ := split second others
      have chars := congrArg String.toList same
      rw [text, otherText] at chars
      obtain ⟨rfl, rfl⟩ := name_injective (each first (by simp)) (otherEach second (by simp)) ends
        otherEnds chars
      congr 1
      rcases shape with ⟨none, rfl⟩ | ⟨-, shape⟩ <;> rcases otherShape with ⟨otherNone, both⟩ | ⟨-, both⟩
      · rw [none, otherNone]
      · cases both
      · rw [shape] at both
        cases both
      · rw [shape] at both
        refine ih (fun name listed => each name (by simp [listed]))
          (fun name listed => otherEach name (by simp [listed])) ?_
        exact String.toList_inj.mp (by simpa using both)

namespace Scalar

theorem read?_literal (value : Scalar) (source : value.isSource) :
    Number.read? value.literal = match value with
      | .number x => some x
      | _ => none := by
  cases value with
  | null => rfl
  | bool value => cases value <;> rfl
  | number x => exact Number.Style.read?_text rfl source
  | _ => cases source

/-- The literals of a source are told apart by their texts. -/
theorem literal_injective {first second : Scalar} (source : first.isSource) (otherSource : second.isSource)
    (same : first.literal = second.literal) : first = second := by
  have read := read?_literal first source
  rw [same, read?_literal second otherSource] at read
  have plain : ∀ value : Scalar, value.isSource → (∃ x, value = .number x) ∨
      value = .null ∨ ∃ answer, value = .bool answer := by
    intro value source
    cases value with
    | null => exact .inr (.inl rfl)
    | bool answer => exact .inr (.inr ⟨answer, rfl⟩)
    | number x => exact .inl ⟨x, rfl⟩
    | _ => cases source
  rcases plain first source with ⟨x, rfl⟩ | rfl | ⟨answer, rfl⟩ <;>
  rcases plain second otherSource with ⟨y, rfl⟩ | rfl | ⟨other, rfl⟩
  · exact congrArg _ (Option.some.inj read).symm
  · cases read
  · cases read
  · cases read
  · rfl
  · cases other <;> exact absurd same (by decide)
  · cases read
  · cases answer <;> exact absurd same (by decide)
  · cases answer <;> cases other <;> first | rfl | exact absurd same (by decide)

theorem literal_unbroken {value : Scalar} (source : value.isSource) : '\n' ∉ value.literal.toList := by
  cases value with
  | null => decide
  | bool value => cases value <;> decide
  | number x =>
    change '\n' ∉ (Number.Style.literal.text x).toList
    have unsigned : Number.isUnsigned x := source
    unfold Number.isUnsigned at unsigned
    rw [Number.Style.text, String.toList_ofList]
    cases shape : Number.binary x with
    | nan =>
      rw [shape] at unsigned
      cases unsigned
    | infinite negative =>
      rw [shape] at unsigned
      obtain rfl : negative = false := by simpa using unsigned
      decide
    | finite negative significand exponent =>
      rw [shape] at unsigned
      obtain rfl : negative = false := by simpa using unsigned
      obtain ⟨first, rest, -, text, -, numeric, -⟩ :=
        Number.Style.literal.decimal_reads (Number.shortest significand exponent)
      rw [Number.Style.chars, if_neg Bool.false_ne_true, List.nil_append, text]
      exact fun broken => absurd (numeric _ broken) (by decide)
  | _ => cases source

end Scalar

namespace Node

variable {node first second : Node} {kind : NodeKind}

/-- The word that the heading of a node starts with. -/
def opening : NodeKind → String
  | .literal => "Literal"
  | .binary => "BinaryOp"
  | .unary => "UnaryOp"
  | .reference => "Variable"
  | .assignment => "Assignment"
  | .call => "Call"
  | .matchArm => "Case"
  | .matching => "Match"
  | .exprStmt => "ExpressionStatement"
  | .varDecl => "VarDecl"
  | .printStmt => "Print"
  | .ifStmt => "IfStatement"
  | .whileStmt => "WhileStatement"
  | .forStmt => "ForStatement"
  | .block => "Block"
  | .fnDecl => "FunctionDecl"
  | .returnStmt => "Return"

/-- What stands in brackets after it. -/
def bracketed : Node → Option String
  | .literal _ value => some value.literal
  | .reference _ name | .assignment _ name _ => some name
  | .binary _ operator _ _ | .unary _ operator _ => some operator
  | .varDecl _ name initializer => some (name ++ if initializer.isShown then " = ..." else "")
  | .fnDecl _ name params _ => some (name ++ (", params=[" ++ (", ".intercalate params ++ "]")))
  | _ => none

/-- The first line of the outline of a node, without its place in the outline. -/
def heading (node : Node) : String :=
  node.kind?.elim "" opening ++ node.bracketed.elim "" fun text => "(" ++ text ++ ")"

theorem opening_alpha (kind : NodeKind) :
    (opening kind).toList.all Char.isAlpha = true ∧ ∃ first ∈ (opening kind).toList.head?, first.isUpper := by
  cases kind <;> exact ⟨rfl, _, rfl, rfl⟩

theorem opening_injective {kind other : NodeKind} (same : opening kind = opening other) : kind = other := by
  have each : ∀ kind ∈ NodeKind.all, ∀ other ∈ NodeKind.all, opening kind = opening other → kind = other := by
    decide
  have listed : ∀ kind : NodeKind, kind ∈ NodeKind.all := by
    intro kind
    cases kind <;> decide
  exact each kind (listed kind) other (listed other) same

theorem heading_injective {other : NodeKind} (isKind : first.kind? = some kind)
    (otherKind : second.kind? = some other) (same : heading first = heading second) :
    kind = other ∧ bracketed first = bracketed second := by
  unfold heading at same
  rw [isKind, otherKind] at same
  have opens : ∀ text : Option String, ∀ c ∈ (text.elim "" fun text => "(" ++ text ++ ")").toList.head?,
      c.isAlpha = false := by
    intro text
    cases text with
    | none => simp
    | some text =>
      simp
  have chars := congrArg String.toList same
  simp only [String.toList_append, Option.elim_some] at chars
  have alpha : ∀ kind, ∀ c ∈ (opening kind).toList, c.isAlpha :=
    fun kind => List.all_eq_true.mp (opening_alpha kind).1
  obtain ⟨openings, brackets⟩ := run_injective (alpha kind) (alpha other) (opens _) (opens _) chars
  refine ⟨opening_injective (String.toList_inj.mp openings), ?_⟩
  cases inner : bracketed first <;> cases otherInner : bracketed second <;>
    simp [inner, otherInner] at brackets ⊢
  exact String.toList_inj.mp brackets

/-- What a node holds besides the trees below it. -/
def shell : Node → Node
  | .literal _ value => .literal 1 value
  | .binary _ operator _ _ => .binary 1 operator absent absent
  | .unary _ operator _ => .unary 1 operator absent
  | .reference _ name => .reference 1 name
  | .assignment _ name _ => .assignment 1 name absent
  | .call .. => .call 1 absent []
  | .matchArm .. => .matchArm 1 absent absent
  | .matching .. => .matching 1 absent []
  | .exprStmt .. => .exprStmt 1 absent
  | .varDecl _ name _ => .varDecl 1 name absent
  | .printStmt .. => .printStmt 1 absent
  | .ifStmt .. => .ifStmt 1 absent absent absent
  | .whileStmt .. => .whileStmt 1 absent absent
  | .forStmt .. => .forStmt 1 absent absent absent absent
  | .block .. => .block 1 []
  | .fnDecl _ name params _ => .fnDecl 1 name params absent
  | .returnStmt .. => .returnStmt 1 absent
  | .bare _ kind => .bare 1 kind
  | .atom value => .atom value

/-- A shell with trees put in the first of its places. -/
def filled : Node → List Node → Node
  | .binary line operator _ _, [left, right] => .binary line operator left right
  | .unary line operator _, [operand] => .unary line operator operand
  | .assignment line name _, [value] => .assignment line name value
  | .call line _ _, callee :: arguments => .call line callee arguments
  | .matchArm line _ _, [pattern, body] => .matchArm line pattern body
  | .matching line _ _, subject :: arms => .matching line subject arms
  | .exprStmt line _, [expression] => .exprStmt line expression
  | .varDecl line name _, [initializer] => .varDecl line name initializer
  | .printStmt line _, [expression] => .printStmt line expression
  | .ifStmt line _ _ otherwise, [condition, thenBranch] => .ifStmt line condition thenBranch otherwise
  | .ifStmt line _ _ _, [condition, thenBranch, elseBranch] =>
    .ifStmt line condition thenBranch elseBranch
  | .whileStmt line _ _, [condition, body] => .whileStmt line condition body
  | .block line _, statements => .block line statements
  | .fnDecl line name params _, [body] => .fnDecl line name params body
  | .returnStmt line _, [value] => .returnStmt line value
  | shell, _ => shell

/-- The trees below a node that its outline shows. -/
def shown (node : Node) : List Node :=
  (children node).filter fun inner => !inner.isAbsent

theorem shown_eq_children (present : ∀ inner ∈ children node, inner.isAbsent = false) :
    shown node = children node :=
  List.filter_eq_self.mpr fun inner listed => by simp [present inner listed]

/-- A tree is its shell with the trees below it put in. -/
theorem filled_shell (belongs : Belongs node) :
    filled (shell node) (relinedAll 1 (shown node)) = relined 1 node := by
  have missing : isAbsent absent = true := rfl
  cases belongs with
  | absent => rfl
  | arm pattern body => simp [shell, shown, children, relinedAll, relined, filled, pattern.present, body.present]
  | inRole wellFormed =>
    induction wellFormed with
    | statement _ ih => exact ih
    | literal | reference | bareReturn | bareVar | fnDecl => rfl
    | binary _ left right =>
      simp [shell, shown, children, relinedAll, relined, filled, left.present, right.present]
    | unary _ part | assignment _ part | exprStmt part | printStmt part | returnStmt part
    | varDecl _ part => simp [shell, shown, children, relinedAll, relined, filled, part.present]
    | ifOnly condition branch =>
      simp [shell, shown, children, relinedAll, relined, filled, condition.present, branch.present, missing]
      rfl
    | ifElse condition branch _ other =>
      simp [shell, shown, children, relinedAll, relined, filled, condition.present, branch.present,
        other.present]
    | whileStmt condition branch =>
      simp [shell, shown, children, relinedAll, relined, filled, condition.present, branch.present]
    | call callee each =>
      rw [shown_eq_children]
      · rfl
      · exact List.forall_mem_cons.mpr ⟨callee.present, fun part listed => (each part listed).present⟩
    | matching arms subject =>
      rw [shown_eq_children]
      · rfl
      · exact List.forall_mem_cons.mpr ⟨subject.present, List.forall_mem_map.mpr fun _ _ => rfl⟩
    | block each =>
      rw [shown_eq_children]
      · rfl
      · exact fun part listed => (each part listed).present

/-- The names and literals of a node are such as a source can have. -/
def Legible : Node → Prop
  | .literal _ value => value.isSource
  | .varDecl _ name _ => isName name
  | .fnDecl _ name params _ => isName name ∧ ∀ param ∈ params, isName param
  | _ => True

theorem Belongs.legible (belongs : Belongs node) : Legible node := by
  cases belongs with
  | absent | arm => trivial
  | inRole wellFormed =>
    induction wellFormed with
    | statement _ ih => exact ih
    | literal source => exact source
    | bareVar named | varDecl named => exact named
    | fnDecl named params => exact ⟨named, params⟩
    | _ => trivial

theorem fn_injective {name other : String} {params others : List String}
    (legible : isName name ∧ ∀ param ∈ params, isName param)
    (otherLegible : isName other ∧ ∀ param ∈ others, isName param)
    (same : name ++ (", params=[" ++ (", ".intercalate params ++ "]")) =
      other ++ (", params=[" ++ (", ".intercalate others ++ "]"))) : name = other ∧ params = others := by
  have comma : isWordChar ',' = false := by decide +kernel
  have chars := congrArg String.toList same
  rw [String.toList_append, String.toList_append (s := other)] at chars
  obtain ⟨names, tails⟩ := name_injective legible.1 otherLegible.1 (by simp [comma]) (by simp [comma]) chars
  refine ⟨names, commas_injective legible.2 otherLegible.2 (String.toList_inj.mp ?_)⟩
  simpa using tails

theorem var_injective {name other : String} {initialized otherInitialized : Bool} (named : isName name)
    (otherNamed : isName other) (same : (name ++ if initialized then " = ..." else "") =
      other ++ if otherInitialized then " = ..." else "") : name = other := by
  have space : isWordChar ' ' = false := by decide +kernel
  have ends : ∀ answer : Bool, ∀ c ∈ (if answer then " = ..." else "").toList.head?,
      isWordChar c = false := by
    intro answer
    cases answer <;> simp [space]
  have chars := congrArg String.toList same
  rw [String.toList_append, String.toList_append] at chars
  exact (name_injective named otherNamed (ends _) (ends _) chars).1

/-- The heading of a node says what the node holds besides the trees below it. -/
theorem shell_injective {other : NodeKind} (legible : Legible first) (otherLegible : Legible second)
    (isKind : first.kind? = some kind) (otherKind : second.kind? = some other)
    (same : heading first = heading second) : kind = other ∧ shell first = shell second := by
  obtain ⟨rfl, brackets⟩ := heading_injective isKind otherKind same
  refine ⟨rfl, ?_⟩
  cases first <;> cases isKind <;> cases second <;> cases otherKind
  case literal.refl.literal.refl =>
    simp only [shell, Scalar.literal_injective legible otherLegible (Option.some.inj brackets)]
  case varDecl.refl.varDecl.refl =>
    simp only [shell, var_injective legible otherLegible (Option.some.inj brackets)]
  case fnDecl.refl.fnDecl.refl =>
    obtain ⟨rfl, rfl⟩ := fn_injective legible otherLegible (Option.some.inj brackets)
    rfl
  case binary.refl.binary.refl | unary.refl.unary.refl | reference.refl.reference.refl
    | assignment.refl.assignment.refl =>
    cases brackets
    rfl
  all_goals rfl

theorem name_unbroken {name : String} (named : isName name) : '\n' ∉ name.toList := by
  intro broken
  exact absurd ((isName_chars named).2 _ broken) (by decide +kernel)

theorem names_unbroken {names : List String} (each : ∀ name ∈ names, isName name) :
    '\n' ∉ (", ".intercalate names).toList := by
  cases names with
  | nil => decide
  | cons first rest =>
    induction rest generalizing first with
    | nil => simpa using name_unbroken (each first (by simp))
    | cons second rest ih =>
      have onward := ih second fun name listed => each name (by simp [listed])
      rw [String.toList_intercalate] at onward
      simpa [String.toList_intercalate] using ⟨name_unbroken (each first (by simp)), onward⟩

theorem bracketed_unbroken {text : String} (wellFormed : WellFormed role node)
    (said : bracketed node = some text) : '\n' ∉ text.toList := by
  induction wellFormed with
  | statement _ ih => exact ih said
  | literal source =>
    cases said
    exact Scalar.literal_unbroken source
  | reference named | assignment named =>
    cases said
    exact name_unbroken named
  | binary known =>
    cases said
    have each : ∀ operator ∈ binaryOperators, '\n' ∉ operator.toList := by decide
    exact each _ known
  | unary known =>
    cases said
    have each : ∀ operator ∈ unaryOperators, '\n' ∉ operator.toList := by decide
    exact each _ known
  | bareVar named | varDecl named =>
    cases said
    rw [String.toList_append, List.mem_append]
    rintro (broken | broken)
    · exact name_unbroken named broken
    · split at broken <;> exact absurd broken (by decide)
  | fnDecl named each =>
    cases said
    simp only [String.toList_append, List.mem_append]
    rintro (broken | broken | broken | broken)
    · exact name_unbroken named broken
    · exact absurd broken (by decide)
    · exact names_unbroken each broken
    · exact absurd broken (by decide)
  | _ => cases said

theorem heading_unbroken (belongs : Belongs node) : '\n' ∉ (heading node).toList := by
  have opens : ∀ kind : Option NodeKind, '\n' ∉ (kind.elim "" opening).toList := by
    intro kind broken
    cases kind with
    | none => cases broken
    | some kind =>
      have alpha := List.all_eq_true.mp (opening_alpha kind).1 _ broken
      exact absurd alpha (by decide)
  unfold heading
  rw [String.toList_append, List.mem_append]
  rintro (broken | broken)
  · exact opens _ broken
  · cases said : bracketed node with
    | none => simp [said] at broken
    | some text =>
      cases belongs with
      | absent | arm => cases said
      | inRole wellFormed => simp [said, bracketed_unbroken wellFormed said] at broken

end Node

end Scriptlet
