import Scriptlet.Proofs.Grammar.ExpressionCompleteness

/-! The parser reads every phrase of the grammar, by induction on its derivation. What the induction
carries is the reading of the phrase and, for phrases that recur on the left, the way to the loop
that reads them. The depth that a phrase needs is bounded by its number of tokens. -/
namespace Scriptlet

namespace Phrase

/-- How many phrases can nest around the same tokens, from this phrase inwards. -/
def rank : Phrase → Nat
  | .expression => 9
  | .assignment => 8
  | .equality => 7
  | .comparison => 6
  | .term => 5
  | .factor => 4
  | .unary => 3
  | .call | .declaration => 2
  | .primary | .statement => 1
  | _ => 0

theorem rank_alternative (phrase : Phrase) :
    ∀ inner ∈ alternatives phrase, rank inner < rank phrase := by
  cases phrase <;> decide

theorem rank_lt (phrase : Phrase) : rank phrase < 10 := by
  cases phrase <;> decide

/-- A level of binary operators is read as a chain of its operands. -/
theorem body_eq_chain (parse : Phrase → Parse Node) (turns : Nat)
    (level : operand ∈ alternatives phrase) (levelled : operators phrase ≠ []) :
    body parse turns phrase = chain parse operand (operators phrase) turns := by
  cases phrase <;> first | exact absurd rfl levelled | cases List.mem_singleton.mp level; rfl

/-- The only tokens after an operand that a level goes on with are its operators. -/
theorem continuations_level (phrase : Phrase) : operators phrase ≠ [] →
    ∀ inner ∈ alternatives phrase, ∀ kind ∈ operators phrase, kind ≠ .endOfInput ∧
      kind ≠ .elseWord ∧ kind ∉ inner.continuations ∧ kind ∈ phrase.continuations := by
  cases phrase <;> decide

end Phrase

namespace Grammar

open Scriptlet.Action Parse Phrase

/-- The first token of a declaration decides which one it is. -/
theorem declarationBody_choice (parse : Phrase → Parse Node) {inner : Phrase} {stream : Stream}
    (listed : inner ∈ alternatives .declaration) (opens : stream.current.kind ∈ inner.openers) :
    declarationBody parse stream = parse inner stream := by
  rw [declarationBody, bind_of_ok _ (current_run stream)]
  generalize stream.current.kind = kind at opens
  simp only [alternatives, List.mem_cons, List.not_mem_nil, or_false] at listed
  rcases listed with rfl | rfl | rfl <;>
    cases kind <;> first | rfl | exact absurd opens (by decide)

theorem statementBody_choice (parse : Phrase → Parse Node) {inner : Phrase} {stream : Stream}
    (listed : inner ∈ alternatives .statement) (opens : stream.current.kind ∈ inner.openers) :
    statementBody parse stream = parse inner stream := by
  rw [statementBody, bind_of_ok _ (current_run stream)]
  generalize stream.current.kind = kind at opens
  simp only [alternatives, List.mem_cons, List.not_mem_nil, or_false] at listed
  rcases listed with rfl | rfl | rfl | rfl | rfl | rfl | rfl <;>
    cases kind <;> first | rfl | exact absurd opens (by decide)

/-- What the parser does with the tokens of a phrase. -/
structure Complete (turns : Nat) (parse : Phrase → Parse Node) (phrase : Phrase) (beforeElse : Bool)
    (span : List Token) (node : Node) : Prop where
  reads : Reads turns (body parse turns phrase) (Stops phrase beforeElse) span node
  chains : phrase.operators ≠ [] → ∀ operand ∈ alternatives phrase,
    Reaches turns (chain parse operand phrase.operators turns)
      (chainRest parse operand phrase.operators) (Stops operand beforeElse) span node
  calls : phrase = .call →
    Reaches turns (callBody parse turns) (callRest parse turns) (Stops .primary beforeElse) span node

section

variable {turns : Nat} {parse : Phrase → Parse Node} {phrase operand inner : Phrase}
variable {beforeElse : Bool} {span : List Token} {node : Node}

theorem Complete.of_reads
    (reads : Reads turns (body parse turns phrase) (Stops phrase beforeElse) span node)
    (plain : phrase.operators = [] ∧ phrase ≠ .call) :
    Complete turns parse phrase beforeElse span node :=
  ⟨reads, fun levelled => absurd plain.1 levelled, fun isCall => absurd isCall plain.2⟩

theorem Complete.of_chain (levelled : phrase.operators ≠ []) (level : operand ∈ alternatives phrase)
    (reaches : Reaches turns (chain parse operand phrase.operators turns)
      (chainRest parse operand phrase.operators) (Stops operand beforeElse) span node) :
    Complete turns parse phrase beforeElse span node where
  reads := by
    intro stream next rest place stops
    rw [body_eq_chain parse turns level levelled]
    refine chain_ends reaches place ⟨stops.alternative level, fun listed => stops.1 ?_⟩
    exact (continuations_level phrase levelled operand level _ listed).2.2.2
  chains := by
    intro _ other alsoLevel
    have same : other = operand := by
      cases phrase <;> first
        | exact absurd rfl levelled
        | exact (List.mem_singleton.mp alsoLevel).trans (List.mem_singleton.mp level).symm
    rw [same]
    exact reaches
  calls := by
    rintro rfl
    exact absurd rfl levelled

theorem Complete.of_call
    (reaches : Reaches turns (callBody parse turns) (callRest parse turns)
      (Stops .primary beforeElse) span node) :
    Complete turns parse .call beforeElse span node where
  reads := by
    intro stream next rest place stops
    refine call_ends reaches place ⟨stops.alternative (by simp [alternatives]), fun isParen => ?_⟩
    exact stops.1 (by simp [isParen, continuations])
  chains := fun levelled => absurd rfl levelled
  calls := fun _ => reaches

theorem Reads.weaken {stops fewer : Token → Prop} {action : Parse α} {value : α}
    (reads : Reads turns action stops span value) (implies : ∀ next, fewer next → stops next) :
    Reads turns action fewer span value :=
  fun _ next _ place next_stops => reads place (implies next next_stops)

/-- A phrase that consists of one other phrase. -/
theorem Complete.alternative (listed : inner ∈ alternatives phrase)
    (derivation : Derives inner beforeElse span node)
    (reads : Reads turns (parse inner) (Stops inner beforeElse) span node) :
    Complete turns parse phrase beforeElse span node := by
  by_cases levelled : phrase.operators = []
  · cases phrase with
    | declaration | statement =>
      refine .of_reads ?_ ⟨rfl, by decide⟩
      intro stream next rest place stops
      obtain ⟨first, more, rfl, opens⟩ := derivation.first_token
      have here := Stream.current_of_remaining place.1
      obtain ⟨after, success, place⟩ := reads place (stops.alternative listed)
      refine ⟨after, Eq.trans ?_ success, place⟩
      first
        | exact declarationBody_choice parse listed (here ▸ opens)
        | exact statementBody_choice parse listed (here ▸ opens)
    | expression =>
      cases List.mem_singleton.mp listed
      exact .of_reads (reads.weaken fun _ stops => stops.alternative listed) ⟨rfl, by decide⟩
    | assignment =>
      cases List.mem_singleton.mp listed
      refine .of_reads ((equality_reads reads).weaken fun next stops => ?_) ⟨rfl, by decide⟩
      refine ⟨stops.alternative listed, fun isAssign => stops.1 ?_⟩
      simp [isAssign, continuations]
    | unary =>
      cases List.mem_singleton.mp listed
      refine .of_reads (callOnly_reads derivation (reads.weaken fun _ stops => ?_)) ⟨rfl, by decide⟩
      exact stops.alternative listed
    | call =>
      cases List.mem_singleton.mp listed
      exact .of_call (call_starts reads)
    | primary =>
      cases List.mem_singleton.mp listed
      refine .of_reads (matchOnly_reads derivation (reads.weaken fun _ stops => ?_)) ⟨rfl, by decide⟩
      exact stops.alternative listed
    | _ => first | exact absurd levelled (by decide) | simp [alternatives] at listed
  · exact .of_chain levelled listed (chain_starts reads)

/-- The parser of a phrase inside `whole`, at a depth that is enough for `whole`. -/
theorem Reads.inside {whole : List Token} {outer : Phrase} {depth : Nat}
    (complete : ∀ depth, 10 * span.length + phrase.rank ≤ depth →
      Complete turns (parseWithin turns depth) phrase beforeElse span node)
    (enough : 10 * whole.length + outer.rank ≤ depth)
    (smaller : 10 * span.length + phrase.rank < 10 * whole.length + outer.rank) :
    Reads turns (parseWithin turns depth phrase) (Stops phrase beforeElse) span node := by
  cases depth with
  | zero => omega
  | succ depth => exact (complete depth (by omega)).reads

theorem Reads.part {whole : List Token} {outer : Phrase} {depth : Nat}
    (complete : ∀ depth, 10 * span.length + phrase.rank ≤ depth →
      Complete turns (parseWithin turns depth) phrase beforeElse span node)
    (enough : 10 * whole.length + outer.rank ≤ depth) (shorter : span.length < whole.length) :
    Reads turns (parseWithin turns depth phrase) (Stops phrase beforeElse) span node := by
  have bounded := phrase.rank_lt
  exact .inside complete enough (by omega)

end

theorem Following.length_span_le (joined : Following separator spans tail) (member : span ∈ spans) :
    span.length < tail.length := by
  induction joined with
  | none => cases member
  | more _ _ ih =>
    simp only [List.cons_append, List.length_cons, List.length_append]
    rcases List.mem_cons.mp member with rfl | member
    · omega
    · have := ih member
      omega

theorem Separated.length_span_le (joined : Separated separator spans tail) (member : span ∈ spans) :
    span.length ≤ tail.length := by
  cases joined with
  | none => cases member
  | some rest =>
    simp only [List.length_append]
    rcases List.mem_cons.mp member with rfl | member
    · omega
    · have := rest.length_span_le member
      omega

theorem length_part_le {parts : List (List Token × Node)} (member : part ∈ parts) :
    part.1.length ≤ (parts.map Prod.fst).flatten.length :=
  (List.sublist_flatten_of_mem (List.mem_map_of_mem member)).length_le

/-- The parser reads whatever the grammar derives, at a depth of ten for each token. -/
theorem Derives.complete {phrase : Phrase} (turns : Nat)
    (derivation : Derives phrase beforeElse span node) :
    ∀ depth, 10 * span.length + phrase.rank ≤ depth →
      Complete turns (parseWithin turns depth) phrase beforeElse span node := by
  induction derivation with
  | alternative listed derivation ih =>
    intro depth enough
    have lower := rank_alternative _ _ listed
    exact .alternative listed derivation (.inside ih enough (by omega))
  | uninitialized isVar isName ends =>
    exact fun _ _ => .of_reads (uninitialized_reads isVar isName ends) ⟨rfl, by decide⟩
  | initialized isVar isName isAssign _ ends ih =>
    intro depth enough
    have initializer := Reads.part ih enough (by grind)
    exact .of_reads (initialized_reads isVar isName isAssign initializer ends) ⟨rfl, by decide⟩
  | function isFn isName opens params isParam joined closes _ ih =>
    intro depth enough
    have body := Reads.part ih enough (by grind)
    exact .of_reads (function_reads isFn isName opens isParam joined closes body) ⟨rfl, by decide⟩
  | print isPrint _ ends ih =>
    intro depth enough
    have expression := Reads.part ih enough (by grind)
    exact .of_reads (print_reads isPrint expression ends) ⟨rfl, by decide⟩
  | ifOnly isIf opens _ closes _ conditionIh branchIh =>
    intro depth enough
    have condition := Reads.part conditionIh enough (by grind)
    have branch := Reads.part branchIh enough (by grind)
    exact .of_reads (ifOnly_reads isIf opens condition closes branch) ⟨rfl, by decide⟩
  | ifElse isIf opens _ closes _ isElse _ conditionIh branchIh otherIh =>
    intro depth enough
    have condition := Reads.part conditionIh enough (by grind)
    have branch := Reads.part branchIh enough (by grind)
    have otherwise := Reads.part otherIh enough (by grind)
    exact .of_reads (ifElse_reads isIf opens condition closes branch isElse otherwise)
      ⟨rfl, by decide⟩
  | whileLoop isWhile opens _ closes _ conditionIh bodyIh =>
    intro depth enough
    have condition := Reads.part conditionIh enough (by grind)
    have body := Reads.part bodyIh enough (by grind)
    exact .of_reads (whileLoop_reads isWhile opens condition closes body) ⟨rfl, by decide⟩
  | forLoop isFor opens starts initializer endsFirst condition endsSecond increment closes _
      firstIh secondIh thirdIh bodyIh =>
    intro depth enough
    have body := Reads.part bodyIh enough (by grind)
    refine .of_reads (forLoop_reads isFor opens starts initializer (fun some => ?_) endsFirst condition
      (fun some => ?_) endsSecond increment (fun some => ?_) closes body) ⟨rfl, by decide⟩
    · exact .part (firstIh some) enough (by grind)
    · exact .part (secondIh some) enough (by grind)
    · exact .part (thirdIh some) enough (by grind)
  | bareReturn isReturn ends =>
    intro depth _
    have noValue : ([] : List Token) ≠ [] → Derives .expression false [] .absent :=
      fun some => absurd rfl some
    exact .of_reads (return_reads isReturn noValue (fun some => absurd rfl some) ends)
      ⟨rfl, by decide⟩
  | returnValue isReturn value ends ih =>
    intro depth enough
    refine .of_reads ?_ ⟨rfl, by decide⟩
    have some := value.span_ne_nil
    simpa only [body, if_neg some] using
      return_reads isReturn (fun _ => value) (fun _ => .part ih enough (by grind)) ends
  | block opens parts each closes ih =>
    intro depth enough
    refine .of_reads (block_reads opens each (fun part member => ?_) closes) ⟨rfl, by decide⟩
    have small := length_part_le member
    exact .part (ih part member) enough (by grind)
  | expressionStatement _ ends ih =>
    intro depth enough
    have expression := Reads.part ih enough (by grind)
    exact .of_reads (expressionStatement_reads expression ends) ⟨rfl, by decide⟩
  | assignment _ isAssign _ targetIh valueIh =>
    intro depth enough
    have target := Reads.part targetIh enough (by grind)
    have value := Reads.part valueIh enough (by grind)
    exact .of_reads (assignment_reads target isAssign value) ⟨rfl, by decide⟩
  | binary level _ listed _ leftIh rightIh =>
    intro depth enough
    have levelled := List.ne_nil_of_mem listed
    have left := leftIh depth (by grind)
    have right := Reads.part rightIh enough (by grind)
    have ends := continuations_level _ levelled _ level _ listed
    refine .of_chain levelled level (chain_continues (left.chains levelled _ level) listed ?_
      ⟨ends.2.2.1, fun _ => ends.2.1⟩ right)
    exact fun ended => (continuations_level _ levelled _ level _ ended).1 rfl
  | unary listed _ ih =>
    intro depth enough
    exact .of_reads (unary_reads listed (.part ih enough (by grind))) ⟨rfl, by decide⟩
  | call _ opens parts each joined closes calleeIh ih =>
    intro depth enough
    have callee := calleeIh depth (by grind)
    refine .of_call (call_continues (callee.calls rfl) opens each (fun part member => ?_) joined closes)
    have small := joined.length_span_le (List.mem_map_of_mem member)
    exact .part (ih part member) enough (by grind)
  | number isNumber value =>
    exact fun _ _ => .of_reads (number_reads isNumber value) ⟨rfl, by decide⟩
  | constant value => exact fun _ _ => .of_reads (constant_reads value) ⟨rfl, by decide⟩
  | reference isName => exact fun _ _ => .of_reads (reference_reads isName) ⟨rfl, by decide⟩
  | group opens _ closes ih =>
    intro depth enough
    exact .of_reads (group_reads opens (.part ih enough (by grind)) closes) ⟨rfl, by decide⟩
  | matching isMatch _ opens arms _ _ joined trailing closes subjectIh patternsIh bodiesIh =>
    intro depth enough
    have subject := Reads.part subjectIh enough (by grind)
    refine .of_reads (matching_reads isMatch subject opens (fun arm member => ?_)
      (fun arm member => ?_) joined trailing closes) ⟨rfl, by decide⟩
    all_goals
      have small := joined.length_span_le (List.mem_map_of_mem member)
      simp only [Arm.span, List.cons_append, List.length_cons, List.length_append] at small
    · exact .part (patternsIh arm member) enough (by grind)
    · exact .part (bodiesIh arm member) enough (by grind)

end Grammar

end Scriptlet
