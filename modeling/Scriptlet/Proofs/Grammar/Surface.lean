import Scriptlet.Node.Surface
import Scriptlet.Proofs.Grammar.Image
import Scriptlet.Proofs.Node.Parts
import Scriptlet.Proofs.Number.Text
import Scriptlet.Proofs.Script.Depth
import Scriptlet.Proofs.Script.Rendering
import Scriptlet.Proofs.Token.Spaced

/-! The source form of a statement parses back to the statement. Only binary operations have parentheses
of their own, so whatever binds less tightly than an operand must not stand where an operand does. -/
namespace Scriptlet

namespace Node

/-- No operand of an operator is an assignment, no callee is an assignment or a unary operation, and
numbers are finite and written without an exponent. -/
def ShowsGrouping : Node → Prop
  | .literal _ (.number value) =>
    (Number.binary value).isFinite ∧ 'e' ∉ (Number.Style.literal.text value).toList
  | .binary _ _ left right => left.kind? ≠ some .assignment ∧ right.kind? ≠ some .assignment
  | .unary _ _ operand => operand.kind? ≠ some .assignment
  | .call _ callee _ => callee.kind? ≠ some .assignment ∧ callee.kind? ≠ some .unary
  | _ => True

/-- The text of a number reads as the number. -/
def ReadsBack : Node → Prop
  | .literal _ (.number value) => Number.read? (Number.Style.literal.text value) = some value
  | _ => True

variable {node : Node}

/-- The phrase that the source form of an expression is. -/
def shownAs : Node → Phrase
  | .assignment .. => .assignment
  | .unary .. => .unary
  | .call .. => .call
  | _ => .primary

theorem shownAs_expression (node : Node) :
    node.shownAs.standsFor 8 .assignment ∧ node.shownAs.standsFor 8 .expression := by
  unfold shownAs
  split <;> decide

theorem shownAs_operand (plain : node.kind? ≠ some .assignment) : node.shownAs.standsFor 8 .unary := by
  unfold shownAs
  split <;> first | decide | exact absurd rfl plain

theorem shownAs_callee (plain : node.kind? ≠ some .assignment ∧ node.kind? ≠ some .unary) :
    node.shownAs.standsFor 8 .call := by
  unfold shownAs
  split <;> first | decide | exact absurd rfl plain.1 | exact absurd rfl plain.2

end Node

open Node Grammar Lexeme

namespace Scan

variable {kind : Kind} {text : List Char} {tokens : List Token}

theorem Shows.fixed (word : String) (isFixed : kind.isFixed) (same : (fixed kind).lexeme = word) :
    Shows word.toList [Grammar.fixed kind] := by
  rw [← same, Grammar.fixed, String.toList_ofList]
  exact .of_spelled (fixedText_spelled isFixed)

theorem Shows.named {name : String} (isNamed : isName name) :
    Shows name.toList [Grammar.named name] := by
  have shows := Shows.of_spelled (isName.spelled isNamed)
  rwa [String.ofList_toList] at shows

theorem Shows.parenthesized (shows : Shows text tokens) :
    Shows ('(' :: text ++ [')']) (Grammar.fixed .leftParen :: tokens ++ [Grammar.fixed .rightParen]) := by
  have closer : Shows ")".toList [Grammar.fixed .rightParen] := .fixed ")" rfl rfl
  have closed := shows.append closer (.of_mem (by decide))
  exact .opening (by decide) (by decide) (fun bang => absurd bang (by decide)) closed

theorem Shows.ended (shows : Shows text tokens) :
    Shows (text ++ [';']) (tokens ++ [Grammar.fixed .semicolon]) := by
  have semicolon : Shows ";".toList [Grammar.fixed .semicolon] := .fixed ";" rfl rfl
  exact shows.append semicolon (.of_mem (by decide))

/-- Texts with commas between them. -/
theorem Shows.separated {texts : List String} {spans : List (List Token)}
    (each : List.Forall₂ (fun text span => Shows text.toList span) texts spans) :
    ∃ tokens, Separated .comma spans tokens ∧ Shows (", ".intercalate texts).toList tokens := by
  cases each with
  | nil => exact ⟨[], .none, .none⟩
  | @cons first span texts spans shows each =>
    obtain ⟨tail, following, shows⟩ : ∃ tail, Following .comma spans tail ∧
        Shows (", ".intercalate (first :: texts)).toList (span ++ tail) := by
      induction each generalizing first span with
      | nil => exact ⟨[], .none, by simpa using shows⟩
      | @cons next nextSpan texts spans more _ ih =>
        obtain ⟨tail, following, joined⟩ := ih more
        have comma : Shows ",".toList [Grammar.fixed .comma] := .fixed "," rfl rfl
        have whole := shows.append (comma.spaced joined) (.of_mem (by decide))
        refine ⟨Grammar.fixed .comma :: nextSpan ++ tail, .more rfl following, ?_⟩
        simpa [String.toList_intercalate, List.intercalate_cons_cons] using whole
    exact ⟨span ++ tail, .some following, shows⟩

end Scan

namespace Grammar

open Scan

variable {line : Int} {node first second inner function : Node} {arguments : List Node}
variable {text leftText rightText operator name : String} {span leftSpan rightSpan : List Token}

/-- A text that an expression is shown as, and the tokens of that text. -/
structure Displays (node : Node) (text : String) (span : List Token) : Prop where
  surface : node.surfacePart = .ok text
  shows : Shows text.toList span
  starts : ∃ c, text.toList.head? = some c ∧ c ≠ '='
  derives : Derives node.shownAs false span (relined 1 node)

theorem Displays.expression (displays : Displays node text span) :
    Derives .expression false span (relined 1 node) :=
  displays.derives.standing 8 node.shownAs_expression.2

theorem literal_displays {value : Scalar} (source : value.isSource)
    (grouping : ShowsGrouping (.literal line value)) (readsBack : ReadsBack (.literal line value)) :
    ∃ text span, Displays (.literal line value) text span := by
  have constant : ∀ kind : Kind, kind.isFixed → kind.constant? = some value →
      (fixed kind).lexeme = value.literal → (∃ c, value.literal.toList.head? = some c ∧ c ≠ '=') →
      ∃ text span, Displays (.literal line value) text span :=
    fun kind isFixed found same starts =>
      ⟨value.literal, [fixed kind], rfl, .fixed _ isFixed same, starts, .constant found⟩
  cases value with
  | null => exact constant .nullWord rfl rfl rfl ⟨'n', rfl, by decide⟩
  | bool truth =>
    cases truth with
    | false => exact constant .falseWord rfl rfl rfl ⟨'f', rfl, by decide⟩
    | true => exact constant .trueWord rfl rfl rfl ⟨'t', rfl, by decide⟩
  | number x =>
    obtain ⟨finite, plain⟩ := grouping
    have spelled := Number.Style.text_spelled source finite plain
    have shows := Shows.of_spelled spelled
    rw [String.ofList_toList] at shows
    refine ⟨Number.Style.literal.text x, _, rfl, shows, ?_, .number rfl readsBack⟩
    obtain ⟨whole, fraction, some, digits, same⟩ := spelled.of_number
    obtain ⟨c, whole, rfl⟩ := List.exists_cons_of_ne_nil some
    refine ⟨c, by simp [same, numeral], ?_⟩
    rintro rfl
    cases digits '=' (by simp)
  | _ => cases source

theorem reference_displays (isNamed : isName name) :
    Displays (.reference line name) name [named name] := by
  refine ⟨rfl, .named isNamed, ?_, .reference rfl⟩
  unfold isName at isNamed
  split at isNamed
  · cases isNamed
  · rename_i c rest shape
    simp only [Bool.and_eq_true] at isNamed
    refine ⟨c, by rw [shape]; rfl, ?_⟩
    rintro rfl
    exact absurd isNamed.1.1 (by decide +kernel)

theorem binary_displays (known : operator ∈ binaryOperators) (left : Displays first leftText leftSpan)
    (right : Displays second rightText rightSpan)
    (grouping : ShowsGrouping (.binary line operator first second)) :
    ∃ text span, Displays (.binary line operator first second) text span := by
  obtain ⟨kind, spelled, derivation⟩ := Derives.operation known
    (left.derives.standing 8 (shownAs_operand grouping.1))
    (right.derives.standing 8 (shownAs_operand grouping.2))
  have operated := Shows.of_spelled spelled
  rw [String.ofList_toList] at operated
  have shows := (left.shows.spaced (operated.spaced right.shows)).parenthesized
  refine ⟨"(" ++ leftText ++ " " ++ operator ++ " " ++ rightText ++ ")", _, ?_, by simpa using shows,
    ⟨'(', by simp, by decide⟩, .group rfl derivation rfl⟩
  rw [surfacePart, left.surface, right.surface]
  rfl

theorem unary_displays (known : operator ∈ unaryOperators) (operand : Displays inner text span)
    (grouping : ShowsGrouping (.unary line operator inner)) :
    ∃ text span, Displays (.unary line operator inner) text span := by
  obtain ⟨c, kind, rfl, prefixes, listed, operates⟩ := unary_mark known
  obtain ⟨start, isStart, notEquals⟩ := operand.starts
  have apart : c = '!' → text.toList.head? ≠ some '=' := by
    intro _ equals
    exact notEquals (Option.some.inj (isStart.symm.trans equals))
  have shows := Shows.opening listed (List.mem_cons_of_mem _ prefixes) apart operand.shows
  have derivation : Derives .unary false (⟨kind, String.ofList [c], 1⟩ :: span)
      (.unary 1 (String.ofList [c]) (relined 1 inner)) :=
    .unary operates (operand.derives.standing 8 (shownAs_operand grouping))
  refine ⟨String.ofList [c] ++ text, _, ?_, by simpa using shows, ⟨c, by simp, ?_⟩, derivation⟩
  · rw [surfacePart, operand.surface]
    rfl
  · rintro rfl
    exact absurd prefixes (by decide)

theorem assignment_displays (isNamed : isName name) (value : Displays inner text span) :
    ∃ text span, Displays (.assignment line name inner) text span := by
  have target : Displays (.reference line name) name [named name] := reference_displays isNamed
  have equals : Shows "=".toList [fixed .assign] := .fixed "=" rfl rfl
  have shows := target.shows.spaced (equals.spaced value.shows)
  have derivation : Derives .assignment false ([named name] ++ fixed .assign :: span)
      (.assignment 1 name (relined 1 inner)) :=
    .assignment (target.derives.standing 8 rfl) rfl
      (value.derives.standing 8 inner.shownAs_expression.1)
  refine ⟨name ++ " = " ++ text, _, ?_, by simpa using shows, ?_, derivation⟩
  · rw [surfacePart, value.surface]
    rfl
  · obtain ⟨c, isStart, notEquals⟩ := target.starts
    exact ⟨c, by simp [isStart], notEquals⟩

/-- The texts of a list of expressions. -/
theorem exists_displayed (each : ∀ argument ∈ arguments, ∃ text span, Displays argument text span) :
    ∃ (texts : List String) (parts : List (List Token × Node)), surfaceParts arguments = .ok texts ∧
      List.Forall₂ (fun text span => Shows text.toList span) texts (parts.map Prod.fst) ∧
      (∀ part ∈ parts, Derives .expression false part.1 part.2) ∧
      parts.map Prod.snd = relinedAll 1 arguments := by
  induction arguments with
  | nil => exact ⟨[], [], rfl, .nil, by simp, rfl⟩
  | cons argument arguments ih =>
    obtain ⟨text, span, displays⟩ := each argument (by simp)
    obtain ⟨texts, parts, surface, shows, derives, same⟩ :=
      ih fun other member => each other (by simp [member])
    refine ⟨text :: texts, (span, relined 1 argument) :: parts, ?_, .cons displays.shows shows,
      by simpa [displays.expression] using derives, by rw [List.map_cons, same, relinedAll]⟩
    rw [surfaceParts, displays.surface, surface]
    rfl

theorem call_displays (callee : Displays function text span)
    (each : ∀ argument ∈ arguments, ∃ text span, Displays argument text span)
    (grouping : ShowsGrouping (.call line function arguments)) :
    ∃ text span, Displays (.call line function arguments) text span := by
  obtain ⟨texts, parts, surface, shows, derives, same⟩ := exists_displayed each
  obtain ⟨inside, separated, joined⟩ := Shows.separated shows
  have whole := callee.shows.append joined.parenthesized (.of_mem (by decide))
  have derivation : Derives .call false (span ++ fixed .leftParen :: inside ++ [fixed .rightParen])
      (.call 1 (relined 1 function) (parts.map Prod.snd)) :=
    .call (callee.derives.standing 8 (shownAs_callee grouping)) rfl parts derives separated rfl
  rw [same] at derivation
  refine ⟨text ++ "(" ++ ", ".intercalate texts ++ ")", _, ?_, by simpa using whole, ?_, derivation⟩
  · rw [surfacePart, surface, callee.surface]
    rfl
  · obtain ⟨c, isStart, notEquals⟩ := callee.starts
    exact ⟨c, by simp [isStart], notEquals⟩

/-- The texts of the arms of a match. -/
theorem exists_displayed_arms {arms : List (Int × Node × Node)}
    (patterns : ∀ arm ∈ arms, ∃ text span, Displays arm.2.1 text span)
    (bodies : ∀ arm ∈ arms, ∃ text span, Displays arm.2.2 text span) :
    ∃ (texts : List String) (parts : List Arm),
      surfaceParts (arms.map fun arm => .matchArm arm.1 arm.2.1 arm.2.2) = .ok texts ∧
      List.Forall₂ (fun text span => Shows text.toList span) texts (parts.map Arm.span) ∧
      (∀ arm ∈ parts, Derives .expression false arm.pattern arm.patternNode) ∧
      (∀ arm ∈ parts, Derives .expression false arm.body arm.bodyNode) ∧
      parts.map Arm.node = relinedAll 1 (arms.map fun arm => .matchArm arm.1 arm.2.1 arm.2.2) := by
  induction arms with
  | nil => exact ⟨[], [], rfl, .nil, by simp, by simp, rfl⟩
  | cons arm arms ih =>
    obtain ⟨patternText, patternSpan, pattern⟩ := patterns arm (by simp)
    obtain ⟨bodyText, bodySpan, body⟩ := bodies arm (by simp)
    obtain ⟨texts, parts, surface, shows, ofPatterns, ofBodies, same⟩ :=
      ih (fun other member => patterns other (by simp [member]))
        (fun other member => bodies other (by simp [member]))
    let part : Arm := ⟨fixed .caseWord, rfl, patternSpan, relined 1 arm.2.1, fixed .arrow, rfl,
      bodySpan, relined 1 arm.2.2⟩
    have keyword : Shows "case".toList [fixed .caseWord] := .fixed "case" rfl rfl
    have arrow : Shows "=>".toList [fixed .arrow] := .fixed "=>" rfl rfl
    have whole := keyword.spaced (pattern.shows.spaced (arrow.spaced body.shows))
    refine ⟨("case " ++ patternText ++ " => " ++ bodyText) :: texts, part :: parts, ?_,
      .cons (by simpa [part, Arm.span] using whole) shows,
      by simpa [part, pattern.expression] using ofPatterns,
      by simpa [part, body.expression] using ofBodies, ?_⟩
    · rw [List.map_cons, surfaceParts, surfacePart, pattern.surface, body.surface, surface]
      rfl
    · rw [List.map_cons, List.map_cons, relinedAll, same]
      rfl

theorem matching_displays {arms : List (Int × Node × Node)} (subject : Displays inner text span)
    (patterns : ∀ arm ∈ arms, ∃ text span, Displays arm.2.1 text span)
    (bodies : ∀ arm ∈ arms, ∃ text span, Displays arm.2.2 text span) :
    ∃ text span, Displays (.matching line inner
      (arms.map fun arm => .matchArm arm.1 arm.2.1 arm.2.2)) text span := by
  obtain ⟨texts, parts, surface, shows, ofPatterns, ofBodies, same⟩ :=
    exists_displayed_arms patterns bodies
  obtain ⟨inside, separated, joined⟩ := Shows.separated shows
  have keyword : Shows "match".toList [fixed .matchWord] := .fixed "match" rfl rfl
  have opener : Shows "\x7b".toList [fixed .leftBrace] := .fixed "\x7b" rfl rfl
  have closer : Shows "\x7d".toList [fixed .rightBrace] := .fixed "\x7d" rfl rfl
  have whole := keyword.spaced (subject.shows.spaced (opener.spaced (joined.spaced closer)))
  have derivation : Derives .matching false
      (fixed .matchWord :: span ++ fixed .leftBrace :: inside ++ [] ++ [fixed .rightBrace])
      (.matching 1 (relined 1 inner) (parts.map Arm.node)) :=
    .matching rfl subject.expression rfl parts ofPatterns ofBodies separated (.inl rfl) rfl
  rw [same] at derivation
  refine ⟨"match " ++ text ++ " \x7b " ++ ", ".intercalate texts ++ " \x7d", _, ?_,
    by simpa using whole, ⟨'m', by simp, by decide⟩, derivation.standing 1 rfl⟩
  rw [surfacePart, surface, subject.surface]
  rfl

/-- A text that a statement is shown as, and the tokens of that text. -/
structure DisplaysStatement (statement : Node) (text : String) (span : List Token) : Prop where
  surface : statement.surfacePart = .ok text
  shows : Shows text.toList span
  derives : Derives .declaration false span (relined 1 statement)

theorem exprStmt_displays (expression : Displays inner text span) :
    ∃ text span, DisplaysStatement (.exprStmt line inner) text span := by
  obtain ⟨first, span, rfl⟩ := List.exists_cons_of_ne_nil expression.expression.span_ne_nil
  have derivation : Derives .expressionStatement false (first :: span ++ [fixed .semicolon])
      (.exprStmt first.line (relined 1 inner)) :=
    .expressionStatement expression.expression rfl
  rw [expression.shows.line first (by simp)] at derivation
  refine ⟨text ++ ";", _, ?_, by simpa using expression.shows.ended, derivation.standing 2 rfl⟩
  rw [surfacePart, expression.surface]
  rfl

theorem printStmt_displays (expression : Displays inner text span) :
    ∃ text span, DisplaysStatement (.printStmt line inner) text span := by
  have keyword : Shows "print".toList [fixed .printWord] := .fixed "print" rfl rfl
  have shows := keyword.spaced expression.shows.ended
  have derivation : Derives .printStatement false (fixed .printWord :: span ++ [fixed .semicolon])
      (.printStmt 1 (relined 1 inner)) :=
    .print rfl expression.expression rfl
  refine ⟨"print " ++ text ++ ";", _, ?_, by simpa using shows, derivation.standing 2 rfl⟩
  rw [surfacePart, expression.surface]
  rfl

theorem bareReturn_displays : ∃ text span, DisplaysStatement (.returnStmt line .absent) text span := by
  have keyword : Shows "return".toList [fixed .returnWord] := .fixed "return" rfl rfl
  have derivation : Derives .returnStatement false [fixed .returnWord, fixed .semicolon]
      (.returnStmt 1 .absent) :=
    .bareReturn rfl rfl
  exact ⟨"return;", _, rfl, by simpa using keyword.ended, derivation.standing 2 rfl⟩

theorem returnStmt_displays (value : Displays inner text span) (isShown : inner.isShown) :
    ∃ text span, DisplaysStatement (.returnStmt line inner) text span := by
  have keyword : Shows "return".toList [fixed .returnWord] := .fixed "return" rfl rfl
  have shows := keyword.spaced value.shows.ended
  have derivation : Derives .returnStatement false (fixed .returnWord :: span ++ [fixed .semicolon])
      (.returnStmt 1 (relined 1 inner)) :=
    .returnValue rfl value.expression rfl
  refine ⟨"return " ++ text ++ ";", _, ?_, by simpa using shows, derivation.standing 2 rfl⟩
  rw [surfacePart, if_pos isShown, value.surface]
  rfl

theorem bareVar_displays (isNamed : isName name) :
    ∃ text span, DisplaysStatement (.varDecl line name .absent) text span := by
  have keyword : Shows "var".toList [fixed .varWord] := .fixed "var" rfl rfl
  have shows := keyword.spaced (Shows.named isNamed).ended
  have derivation : Derives .variableDeclaration false [fixed .varWord, named name, fixed .semicolon]
      (.varDecl 1 name .absent) :=
    .uninitialized rfl rfl rfl
  exact ⟨"var " ++ name ++ ";", _, rfl, by simpa using shows, derivation.standing 1 rfl⟩

theorem varDecl_displays (isNamed : isName name) (initializer : Displays inner text span)
    (isShown : inner.isShown) : ∃ text span, DisplaysStatement (.varDecl line name inner) text span := by
  have keyword : Shows "var".toList [fixed .varWord] := .fixed "var" rfl rfl
  have equals : Shows "=".toList [fixed .assign] := .fixed "=" rfl rfl
  have shows := keyword.spaced ((Shows.named isNamed).spaced (equals.spaced initializer.shows.ended))
  have derivation : Derives .variableDeclaration false
      (fixed .varWord :: named name :: fixed .assign :: span ++ [fixed .semicolon])
      (.varDecl 1 name (relined 1 inner)) :=
    .initialized rfl rfl rfl initializer.expression rfl
  refine ⟨"var " ++ name ++ " = " ++ text ++ ";", _, ?_, by simpa using shows, derivation.standing 1 rfl⟩
  rw [surfacePart, if_pos isShown, initializer.surface]
  rfl

end Grammar

variable {node : Node} {role : Role}

/-- Every expression whose source form shows its grouping has a text that it is derived from. -/
theorem Node.WellFormed.displays (wellFormed : WellFormed role node) (isExpression : role = .expression)
    (shown : node.Throughout fun part => part.ShowsGrouping ∧ part.ReadsBack) :
    ∃ text span, Displays node text span := by
  induction wellFormed with
  | literal source => exact literal_displays source shown.here.1 shown.here.2
  | binary known _ _ left right =>
    obtain ⟨_, _, left⟩ := left rfl (shown.child (by simp [children]))
    obtain ⟨_, _, right⟩ := right rfl (shown.child (by simp [children]))
    exact binary_displays known left right shown.here.1
  | unary known _ operand =>
    obtain ⟨_, _, operand⟩ := operand rfl (shown.child (by simp [children]))
    exact unary_displays known operand shown.here.1
  | reference named => exact ⟨_, _, reference_displays named⟩
  | assignment named _ value =>
    obtain ⟨_, _, value⟩ := value rfl (shown.child (by simp [children]))
    exact assignment_displays named value
  | call _ _ callee each =>
    obtain ⟨_, _, callee⟩ := callee rfl (shown.child (by simp [children]))
    refine call_displays callee (fun argument listed => ?_) shown.here.1
    exact each argument listed rfl (shown.child (by simp [children, listed]))
  | matching arms _ _ _ subject patterns bodies =>
    obtain ⟨_, _, subject⟩ := subject rfl (shown.child (by simp [children]))
    have each : ∀ arm ∈ arms, (Node.matchArm arm.1 arm.2.1 arm.2.2).Throughout
        fun part => part.ShowsGrouping ∧ part.ReadsBack := by
      intro arm listed
      exact shown.child (List.mem_cons_of_mem _ (List.mem_map_of_mem listed))
    refine matching_displays subject (fun arm listed => ?_) fun arm listed => ?_
    · exact patterns arm listed rfl ((each arm listed).child (by simp [children]))
    · exact bodies arm listed rfl ((each arm listed).child (by simp [children]))
  | _ => cases isExpression

namespace Grammar

variable {limits : Limits} {source : String} {program : List Node} {whole statement : Node}

/-- A statement of one expression, or of none. -/
def isSimple (statement : Node) : Bool :=
  [some .exprStmt, some .printStmt, some .returnStmt, some .varDecl].contains statement.kind?

theorem exists_displayed_statement (wellFormed : WellFormed .declaration statement)
    (simple : isSimple statement)
    (shown : statement.Throughout fun part => part.ShowsGrouping ∧ part.ReadsBack) :
    ∃ text span, DisplaysStatement statement text span := by
  cases wellFormed with
  | statement inner =>
    cases inner with
    | exprStmt expression =>
      obtain ⟨_, _, displays⟩ := expression.displays rfl (shown.child (by simp [children]))
      exact exprStmt_displays displays
    | printStmt expression =>
      obtain ⟨_, _, displays⟩ := expression.displays rfl (shown.child (by simp [children]))
      exact printStmt_displays displays
    | bareReturn => exact bareReturn_displays
    | returnStmt value =>
      obtain ⟨_, _, displays⟩ := value.displays rfl (shown.child (by simp [children]))
      exact returnStmt_displays displays value.isShown
    | _ => cases simple
  | bareVar named => exact bareVar_displays named
  | varDecl named initializer =>
    obtain ⟨_, _, displays⟩ := initializer.displays rfl (shown.child (by simp [children]))
    exact varDecl_displays named displays initializer.isShown
  | fnDecl => cases simple

theorem surface_simple (simple : isSimple statement) : statement.surface = statement.surfacePart := by
  cases statement <;> first | rfl | cases simple

/-- A statement of one expression can stand among declarations, wherever it was found. -/
theorem simple_wellFormed (belongs : Belongs statement) (simple : isSimple statement) :
    WellFormed .declaration statement := by
  cases belongs with
  | absent | arm => cases simple
  | @inRole role _ wellFormed =>
    cases role with
    | declaration => exact wellFormed
    | statement => exact .statement wellFormed
    | expression => cases wellFormed <;> cases simple

/-- A text that high limits are enough for parses in the same way under every limit that it does not
nest too deeply for. -/
theorem parse_under
    (enough : ∀ deeper : Limits, depth ≤ deeper.depth → Script.parse deeper source = .ok program)
    (limits : Limits) :
    Script.parse limits source = .ok program ∨
      ∃ line, Script.parse limits source = .error (.parse (.nestedTooDeeply line)) := by
  rcases Script.parse_deeper (Nat.le_add_right limits.depth depth) source with tooDeep | same
  · exact .inr tooDeep
  · exact .inl (same.symm.trans (enough _ (Nat.le_add_left _ _)))

theorem render_surface (shown : statement.surface = .ok text) (limits : Limits) :
    Script.render limits (fun nodes => nodes.mapM surface) [statement] =
      if fitAll limits.depth [statement] then .ok [text] else .error (.render .depthExceeded) := by
  refine Script.render_of_ok ?_ limits
  rw [List.mapM_cons, shown]
  rfl

/-- The source form of a statement of one expression, at any place of a program that was parsed, is given
under each depth limit that the statement is within. It parses to the statement alone, with all its nodes
on the first line, if it shows the grouping of the expression and its numbers read back. It may nest too
deeply for a depth limit, but not for one that is high enough. -/
theorem surface_parses_back (success : Script.parse limits source = .ok program)
    (listed : whole ∈ program) (inside : Part statement whole) (simple : isSimple statement)
    (grouping : statement.Throughout ShowsGrouping) (readsBack : statement.Throughout ReadsBack) :
    ∃ text depth, statement.surface = .ok text ∧
      (∀ limits : Limits, Script.render limits (fun nodes => nodes.mapM surface) [statement] =
        if fitAll limits.depth [statement] then .ok [text] else .error (.render .depthExceeded)) ∧
      (∀ limits : Limits, Script.parse limits text = .ok [relined 1 statement] ∨
        ∃ line, Script.parse limits text = .error (.parse (.nestedTooDeeply line))) ∧
      ∀ limits : Limits, depth ≤ limits.depth → Script.parse limits text = .ok [relined 1 statement] := by
  have belongs : Belongs statement := .below inside (.inRole (parse_wellFormed success _ listed))
  obtain ⟨text, span, displays⟩ := exists_displayed_statement (simple_wellFormed belongs simple) simple
    fun part inside => ⟨grouping part inside, readsBack part inside⟩
  have derives : ∀ part ∈ [(span, relined 1 statement)], Derives .declaration false part.1 part.2 := by
    simpa using displays.derives
  have whole : Program (span ++ [⟨.endOfInput, "", 1⟩]) [relined 1 statement] :=
    ⟨_, ⟨.endOfInput, "", 1⟩, derives, rfl, by simp, rfl⟩
  have parses : ∀ limits : Limits, 10 * (span.length + 1) + 10 ≤ limits.depth →
      Script.parse limits text = .ok [relined 1 statement] := by
    intro limits enough
    obtain ⟨after, parsed⟩ := parseTokens_complete limits whole (by simpa using enough)
    exact parse_eq_ok.mpr ⟨_, after, tokenize_shown displays.shows, parsed⟩
  have shown : statement.surface = .ok text := (surface_simple simple).trans displays.surface
  exact ⟨text, _, shown, render_surface shown, parse_under parses, parses⟩

/-- A difference of three operands in a block, of which the first two belong together. -/
theorem surface_parses_back_difference :
    let one := Node.literal 2 (.number (Number.Decimal.toFloat false ⟨1, 0⟩))
    let difference := Node.binary 2 "-" (.reference 2 "a") (.reference 2 "b")
    let statement := Node.printStmt 2 (.binary 2 "-" difference one)
    let whole := Node.block 1 [statement]
    Script.parse .standard "\x7b\nprint a - b - 1;\x7d" = .ok [whole] ∧
      Script.render .standard (fun nodes => nodes.mapM surface) [statement] =
        .ok ["print ((a - b) - 1.0);"] ∧
      (∀ limits : Limits, Script.parse limits "print ((a - b) - 1.0);" = .ok [relined 1 statement] ∨
        ∃ line, Script.parse limits "print ((a - b) - 1.0);" = .error (.parse (.nestedTooDeeply line))) ∧
      ∃ depth, ∀ limits : Limits, depth ≤ limits.depth →
        Script.parse limits "print ((a - b) - 1.0);" = .ok [relined 1 statement] := by
  intro one difference statement whole
  have lexed : tokenize "\x7b\nprint a - b - 1;\x7d" = .ok
      [⟨.leftBrace, "\x7b", 1⟩, ⟨.printWord, "print", 2⟩, ⟨.identifier, "a", 2⟩, ⟨.minus, "-", 2⟩,
       ⟨.identifier, "b", 2⟩, ⟨.minus, "-", 2⟩, ⟨.number, "1", 2⟩, ⟨.semicolon, ";", 2⟩,
       ⟨.rightBrace, "\x7d", 2⟩, ⟨.endOfInput, "", 2⟩] := rfl
  have success : Script.parse .standard "\x7b\nprint a - b - 1;\x7d" = .ok [whole] :=
    parse_eq_ok.mpr ⟨_, _, lexed, rfl⟩
  have inside : Part statement whole := .inside (List.mem_singleton_self _) .whole
  have throughout : ∀ property : Node → Prop, property statement →
      property (.binary 2 "-" difference one) → property difference → property (.reference 2 "a") →
      property (.reference 2 "b") → property one → statement.Throughout property := by
    intro property whole outer inner left right last
    have leaf : ∀ child ∈ ([] : List Node), child.Throughout property := by simp
    have innermost : difference.Throughout property := by
      refine .of inner ?_
      simpa [children, difference] using ⟨.of left leaf, .of right leaf⟩
    have expression : (Node.binary 2 "-" difference one).Throughout property := by
      refine .of outer ?_
      simpa [children] using ⟨innermost, .of last leaf⟩
    exact .of whole (by simpa [children, statement] using expression)
  have grouping : statement.Throughout ShowsGrouping := by
    have plain : 'e' ∉ "1.0".toList := by decide
    exact throughout _ trivial (by simp [ShowsGrouping, kind?, difference, one])
      (by simp [ShowsGrouping, kind?, difference]) trivial trivial ⟨rfl, plain⟩
  have readsBack : statement.Throughout ReadsBack :=
    throughout _ trivial trivial trivial trivial trivial rfl
  obtain ⟨text, depth, shown, rendered, under, parses⟩ :=
    surface_parses_back success (List.mem_singleton_self _) inside rfl grouping readsBack
  have same : statement.surface = .ok "print ((a - b) - 1.0);" := rfl
  cases shown.symm.trans same
  exact ⟨success, rendered .standard, under, depth, parses⟩

end Grammar

end Scriptlet
