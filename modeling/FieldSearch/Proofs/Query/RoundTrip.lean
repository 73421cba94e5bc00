import FieldSearch.Proofs.Query.Rendering

/-! Reading what was written. A normal tree is read back from every text that renders it: what each
part of the tree is written as is cut into tokens of its own, and the reader for that part finds the
part in them and leaves alone what stands behind. A list ends where neither its connective nor, in a
conjunction, another term can follow, and this is where parentheses have to be written. -/

namespace FieldSearch

namespace Node

variable {op : Connective} {node : Node} {operands : List Node}

theorem join_eq_logical (hlength : 2 ≤ operands.length)
    (hflat : ∀ operand ∈ operands, ∀ nested, operand ≠ logical op nested) :
    join op operands = logical op operands := by
  have hspliced : operands.flatMap (spliced op) = operands := by
    rw [List.flatMap_congr fun operand hmem => spliced_of_ne (hflat operand hmem)]
    exact List.flatMap_singleton' operands
  unfold join
  rw [hspliced]
  match operands, hlength with
  | first :: second :: rest, _ => rfl

/-- A list of one stands for its member, also if that is a list of the same kind. -/
theorem IsNormal.join_singleton (hnormal : node.IsNormal) : Node.join op [node] = node := by
  by_cases hsame : ∃ nested, node = Node.logical op nested
  · obtain ⟨nested, rfl⟩ := hsame
    cases hnormal with
    | logical hlength =>
        match nested, hlength with
        | first :: second :: rest, _ => simp [Node.join, Node.spliced]
  · have hother : ∀ nested, node ≠ Node.logical op nested := fun nested heq => hsame ⟨nested, heq⟩
    simp [Node.join, spliced_of_ne hother]

end Node

namespace Query

namespace Sentence

/-! ### Readers for either connective -/

/-- No comparator follows here, so that a value stands for itself. -/
def EndsTerm (tokens : List Token) : Prop :=
  ∀ token ∈ tokens.head?, ∀ op, token ≠ .comparator op

def readMember : Connective → List Token → Option (Clause × List Token)
  | .and => negation?
  | .or => conjunction?

def readList : Connective → List Token → Option (Clause × List Token)
  | .and => conjunction?
  | .or => disjunction?

def readFurther : Connective → List Token → List Clause × List Token
  | .and => furtherConditions
  | .or => furtherAlternatives

/-- No member of a list can follow here. -/
def EndsList : Connective → List Token → Prop
  | .and => EndsConjunction
  | .or => EndsDisjunction

/-- What follows here does not belong to a member of a list. -/
def EndsMember : Connective → List Token → Prop
  | .and => EndsTerm
  | .or => EndsConjunction

variable {op : Connective} {tokens more rest : List Token} {member : Clause}

/-- A list is read by its first member and the others behind it. -/
theorem readList_of_member (hmember : readMember op tokens = some (member, rest)) :
    readList op tokens =
      some (.list op member (readFurther op rest).1, (readFurther op rest).2) := by
  cases op with
  | and =>
      have hread : negation? tokens = some (member, rest) := hmember
      show conjunction? tokens = _
      rw [conjunction?_eq, hread]
      rfl
  | or =>
      have hread : conjunction? tokens = some (member, rest) := hmember
      show disjunction? tokens = _
      rw [disjunction?_eq, hread]
      rfl

theorem readFurther_of_end (hends : EndsList op more) : readFurther op more = ([], more) := by
  cases op with
  | and => exact furtherConditions_of_end hends
  | or => exact furtherAlternatives_of_end hends

theorem EndsConjunction.endsTerm (hends : EndsConjunction more) : EndsTerm more := by
  intro token htoken op
  rcases hends token htoken with rfl | rfl <;> simp

theorem EndsList.endsMember (hends : EndsList op more) : EndsMember op more := by
  cases op with
  | and => exact EndsConjunction.endsTerm hends
  | or => exact EndsDisjunction.endsConjunction hends

theorem endsMember_connective (op : Connective) (more : List Token) :
    EndsMember op (.ofConnective op :: more) := by
  cases op <;> simp [EndsMember, EndsTerm, EndsConjunction, Token.ofConnective]

/-- Behind its connective a member goes on with the list. -/
theorem readFurther_connective (hmember : readMember op tokens = some (member, rest)) :
    readFurther op (.ofConnective op :: tokens) =
      (member :: (readFurther op rest).1, (readFurther op rest).2) := by
  cases op with
  | and =>
      have hread : negation? tokens = some (member, rest) := hmember
      show furtherConditions (.and :: tokens) = _
      rw [furtherConditions_eq, afterAnd, hread]
      rfl
  | or =>
      have hread : conjunction? tokens = some (member, rest) := hmember
      show furtherAlternatives (.or :: tokens) = _
      rw [furtherAlternatives_or, hread]
      rfl

/-- A condition without a connective goes on with the conjunction as well. -/
theorem readFurther_juxtaposed (hand : tokens.head? ≠ some .and)
    (hmember : negation? tokens = some (member, rest)) :
    readFurther .and tokens =
      (member :: (readFurther .and rest).1, (readFurther .and rest).2) := by
  have hafter : afterAnd tokens = tokens := by
    unfold afterAnd
    split <;> simp_all
  show furtherConditions tokens = _
  rw [furtherConditions_eq, hafter, hmember]
  rfl

end Sentence

open Sentence

/-! ### Parts -/

namespace Part

/-- The trees of the part are normal. -/
def IsNormal : Part → Prop
  | term node | list _ node => node.IsNormal
  | further _ operands => ∀ operand ∈ operands, operand.IsNormal

/-- The part is read from the tokens, whatever stands behind that does not belong to it. -/
def IsReadFrom : Part → List Token → Prop
  | term node, tokens => ∀ more, EndsTerm more →
      ∃ clause, clause.toNode = node ∧ negation? (tokens ++ more) = some (clause, more)
  | list op node, tokens => ∀ more, EndsList op more →
      ∃ clause, clause.toNode = node ∧ readList op (tokens ++ more) = some (clause, more)
  | further op operands, tokens => ∀ more, EndsList op more → EndsMember op (tokens ++ more) ∧
      ∃ clauses, Clause.toNodes clauses = operands ∧
        readFurther op (tokens ++ more) = (clauses, more)

/-- A term begins with no connective, and with a comparator only if it is a comparison without a
field that has no parentheses around it. -/
def Begins : Part → List Char → List Token → Prop
  | term node, text, tokens => ∃ c s token rest, text = c :: s ∧ tokens = token :: rest ∧
      token ≠ .and ∧ ∀ op, token = .comparator op → node.IsPrefixed ∧ c ≠ '('
  | _, _, _ => True

theorem isNormal_member {op : Connective} {node : Node} :
    (member op node).IsNormal ↔ node.IsNormal := by
  cases op <;> rfl

theorem isReadFrom_member {op : Connective} {node : Node} {tokens : List Token} :
    (member op node).IsReadFrom tokens ↔ ∀ more, EndsMember op more →
      ∃ clause, clause.toNode = node ∧ readMember op (tokens ++ more) = some (clause, more) := by
  cases op <;> rfl

end Part

/-- What is written is cut into the tokens, and the part is read from them. -/
structure IsReadable (part : Part) (text : List Char) (tokens : List Token) : Prop where
  cuts : ∀ {rest}, Stops rest → Cuts text tokens rest
  begins : part.Begins text tokens
  reads : part.IsReadFrom tokens

/-- The other operands of a list stand behind a gap, if there are any. -/
theorem Renders.stops {op : Connective} {operands : List Node} {text rest : List Char}
    (hrenders : Renders (.further op operands) text) (hstops : Stops rest) :
    Stops (text ++ rest) := by
  cases hrenders with
  | last => exact hstops
  | connected hspace hne =>
      rw [List.append_assoc]
      exact stops_of_gap (isGap_of_space hspace hne _)
  | juxtaposed hspace hne =>
      rw [List.append_assoc]
      exact stops_of_gap (isGap_of_space hspace hne _)

namespace IsReadable

variable {op : Operator} {connective : Connective} {value field : String} {node operand : Node}
  {operands : List Node} {text gap before after symbol written more : List Char}
  {tokens others : List Token}

theorem leaf (hvalue : WritesValue value text) :
    ∃ tokens, IsReadable (.term (.leaf value)) text tokens := by
  obtain ⟨literal, rfl, hcuts⟩ := hvalue.exists_literal
  obtain ⟨c, s, rfl, -⟩ := hvalue.exists_cons
  refine ⟨[.value literal], fun hstops => hcuts _ hstops, ?_, fun more hends => ?_⟩
  · exact ⟨c, s, _, [], rfl, rfl, by simp, by simp⟩
  · refine ⟨.value literal, rfl, negation?_value fun op compared rest heq => ?_⟩
    obtain rfl : more = .comparator op :: .value compared :: rest := heq
    exact hends (.comparator op) rfl op rfl

theorem prefixed (hop : WritesOperator op symbol) (hspace : IsSpace gap)
    (hvalue : WritesValue value text) :
    ∃ tokens, IsReadable (.term (.operator op [.leaf value])) (symbol ++ (gap ++ text)) tokens := by
  obtain ⟨literal, rfl, hcuts⟩ := hvalue.exists_literal
  obtain ⟨c, s, hsymbol, -, hc⟩ := hop.exists_cons
  refine ⟨[.comparator op] ++ [.value literal], fun hstops => ?_, ?_, fun more _ => ?_⟩
  · exact (hop.cuts hspace hvalue).append (.space_append hspace (hcuts _ hstops))
  · refine ⟨c, _, .comparator op, _, by rw [hsymbol, List.cons_append], rfl, by simp, ?_⟩
    exact fun _ _ => ⟨⟨op, _, hop.ne_not, rfl⟩, hc⟩
  · exact ⟨.prefixed op literal, rfl, negation?_prefixed op literal more⟩

theorem comparison (hfield : WritesValue field written) (hbefore : IsSpace before)
    (hop : WritesOperator op symbol) (hafter : IsSpace after) (hvalue : WritesValue value text) :
    ∃ tokens, IsReadable (.term (.comparison field op value))
      (written ++ (before ++ (symbol ++ (after ++ text)))) tokens := by
  obtain ⟨left, rfl, hleft⟩ := hfield.exists_literal
  obtain ⟨right, rfl, hright⟩ := hvalue.exists_literal
  obtain ⟨c, s, hwritten, -⟩ := hfield.exists_cons
  obtain ⟨d, s', hsymbol, hd, -⟩ := hop.exists_cons
  refine ⟨[.value left] ++ ([.comparator op] ++ [.value right]), fun {rest} hstops => ?_, ?_,
    fun more _ => ?_⟩
  · have hstops' : Stops (symbol ++ (after ++ text) ++ rest) := by simp [Stops, hsymbol, hd]
    refine (hleft _ ?_).append (.space_append hbefore ?_)
    · rw [List.append_assoc]
      exact hstops'.space hbefore
    · exact (hop.cuts hafter hvalue).append (.space_append hafter (hright _ hstops))
  · exact ⟨c, _, .value left, _, by rw [hwritten, List.cons_append], rfl, by simp, by simp⟩
  · exact ⟨.comparison left op right, rfl, negation?_comparison left right op more⟩

/-- Behind the token for it a negation reads its operand. -/
theorem reads_negation (hoperand : (Part.term operand).IsReadFrom tokens) :
    (Part.term (.not operand)).IsReadFrom (.not :: tokens) := by
  intro more hends
  obtain ⟨clause, rfl, hread⟩ := hoperand more hends
  refine ⟨.negation clause, rfl, ?_⟩
  rw [List.cons_append, negation?_not, hread]
  rfl

theorem mark (hspace : IsSpace gap) (hoperand : IsReadable (.term operand) text tokens)
    (hnext : ∀ c ∈ (gap ++ text).head?, c ≠ '=' ∧ c ≠ '~') :
    IsReadable (.term (.not operand)) ('!' :: (gap ++ text)) (.not :: tokens) where
  cuts {rest} hstops := by
    have hlonger : ∀ entry ∈ Token.symbols, entry.1.head? = some '!' →
        entry.1 = ['!'] ∨ entry.1 = ['!', '='] ∨ entry.1 = ['!', '~'] := by decide
    have hmark : Cuts ['!'] [.not] (gap ++ text ++ rest) := by
      refine .symbol (by decide) fun c hc entry hentry heq => ?_
      obtain ⟨d, s, token, others, htext, -⟩ := hoperand.begins
      have hhead : c ∈ (gap ++ text).head? := by
        rw [htext] at hc ⊢
        simpa [List.head?_append] using hc
      have hother := hnext c hhead
      rcases hlonger entry hentry (by simp [heq]) with h | h | h
      · simp [h] at heq
      · obtain ⟨-, ⟨⟩⟩ := List.cons.inj (h.symm.trans heq)
        exact hother.1 rfl
      · obtain ⟨-, ⟨⟩⟩ := List.cons.inj (h.symm.trans heq)
        exact hother.2 rfl
    exact hmark.append (.space_append hspace (hoperand.cuts hstops))
  begins := ⟨'!', _, .not, tokens, rfl, rfl, by simp, by simp⟩
  reads := reads_negation hoperand.reads

theorem keyword {keyword : List Char} (hkeyword : IsCaseless ['n', 'o', 't'] keyword)
    (hspace : IsSpace gap) (hoperand : IsReadable (.term operand) text tokens)
    (hnext : gap ≠ [] ∨ text.head? = some '(') :
    IsReadable (.term (.not operand)) (keyword ++ (gap ++ text)) (.not :: tokens) where
  cuts {rest} hstops := by
    have hstops' : Stops (gap ++ text ++ rest) := by
      rw [List.append_assoc]
      rcases hnext with hgap | hopening
      · exact stops_of_gap (isGap_of_space hspace hgap _)
      · obtain ⟨s, rfl⟩ := List.head?_eq_some_iff.mp hopening
        exact Stops.space hspace (by simp [Stops, isWordChar, marks])
    exact (Cuts.keyword rfl hkeyword hstops').append (.space_append hspace (hoperand.cuts hstops))
  begins := by
    cases keyword with
    | nil => cases hkeyword
    | cons c s => exact ⟨c, _, .not, tokens, rfl, rfl, by simp, by simp⟩
  reads := reads_negation hoperand.reads

/-- Parentheses leave no trace. -/
theorem group (hbefore : IsSpace before) (hinner : IsReadable (.list .or node) text tokens)
    (hafter : IsSpace after) :
    IsReadable (.term node) ('(' :: (before ++ (text ++ (after ++ [')']))))
      (.opening :: (tokens ++ [.closing])) where
  cuts {rest} hstops := by
    have hopening : Cuts ['('] [.opening] (before ++ (text ++ (after ++ [')'])) ++ rest) :=
      .mark (by decide) (by decide)
    have hclosing : Cuts [')'] [.closing] rest := .mark (by decide) (by decide)
    have hstops' : Stops (after ++ [')'] ++ rest) := by
      rw [List.append_assoc]
      exact (stops_closing rest).space hafter
    exact hopening.append (.space_append hbefore
      ((hinner.cuts hstops').append (.space_append hafter hclosing)))
  begins := ⟨'(', _, .opening, _, rfl, rfl, by simp, by simp⟩
  reads := by
    intro more _
    have hends : EndsList .or (.closing :: more) := by simp [EndsList, EndsDisjunction]
    obtain ⟨clause, rfl, hread⟩ := hinner.reads (.closing :: more) hends
    have hread : disjunction? (tokens ++ .closing :: more) = some (clause, .closing :: more) :=
      hread
    refine ⟨.group clause, rfl, ?_⟩
    rw [List.cons_append, List.append_assoc, List.singleton_append, negation?_opening, hread]

/-- A member alone is a list. -/
theorem single (hnormal : node.IsNormal)
    (hmember : IsReadable (.member connective node) text tokens) :
    IsReadable (.list connective node) text tokens where
  cuts := hmember.cuts
  begins := trivial
  reads := by
    intro more hends
    obtain ⟨clause, hclause, hread⟩ :=
      Part.isReadFrom_member.mp hmember.reads more hends.endsMember
    refine ⟨.list connective clause [], ?_, ?_⟩
    · rw [Clause.toNode, hclause]
      exact hnormal.join_singleton
    · rw [readList_of_member hread, readFurther_of_end hends]

/-- A first member with the others makes a list. -/
theorem several {first : Node} (hnormal : (Node.logical connective (first :: operands)).IsNormal)
    (hfirst : IsReadable (.member connective first) text tokens)
    (hrenders : Renders (.further connective operands) more)
    (hothers : IsReadable (.further connective operands) more others) :
    IsReadable (.list connective (.logical connective (first :: operands))) (text ++ more)
      (tokens ++ others) where
  cuts hstops := (hfirst.cuts (hrenders.stops hstops)).append (hothers.cuts hstops)
  begins := trivial
  reads := by
    intro left hends
    obtain ⟨hmember, clauses, hclauses, hfurther⟩ := hothers.reads left hends
    obtain ⟨clause, hclause, hread⟩ := Part.isReadFrom_member.mp hfirst.reads _ hmember
    refine ⟨.list connective clause clauses, ?_, ?_⟩
    · rw [Clause.toNode, hclause, hclauses]
      cases hnormal with
      | logical hlength _ hflat => exact Node.join_eq_logical hlength hflat
    · rw [List.append_assoc, readList_of_member hread, hfurther]

theorem last : IsReadable (.further connective []) [] [] where
  cuts _ := .space isSpace_nil
  begins := trivial
  reads := fun _ hends => ⟨hends.endsMember, [], rfl, readFurther_of_end hends⟩

/-- One more operand behind a connective. -/
theorem connected {written : List Char} (hbefore : IsSpace before)
    (hconnective : WritesConnective connective written) (hafter : IsSpace after) (hne : after ≠ [])
    (hoperand : IsReadable (.member connective operand) text tokens)
    (hrenders : Renders (.further connective operands) more)
    (hothers : IsReadable (.further connective operands) more others) :
    IsReadable (.further connective (operand :: operands))
      (before ++ (written ++ (after ++ (text ++ more))))
      (.ofConnective connective :: (tokens ++ others)) where
  cuts {rest} hstops := by
    have hgap : ∀ c ∈ (after ++ (text ++ more) ++ rest).head?, isGap c := by
      rw [List.append_assoc]
      exact isGap_of_space hafter hne _
    have hoperands := (hoperand.cuts (hrenders.stops hstops)).append (hothers.cuts hstops)
    exact .space_append hbefore ((hconnective.cuts hgap).append (.space_append hafter hoperands))
  begins := trivial
  reads := by
    intro left hends
    obtain ⟨hmember, clauses, rfl, hfurther⟩ := hothers.reads left hends
    obtain ⟨clause, rfl, hread⟩ := Part.isReadFrom_member.mp hoperand.reads _ hmember
    refine ⟨endsMember_connective connective _, clause :: clauses, rfl, ?_⟩
    rw [List.cons_append, List.append_assoc, readFurther_connective hread, hfurther]

/-- One more operand of a conjunction without a connective. It is not taken for the other side of a
comparison, because it begins with no comparator. -/
theorem juxtaposed (hgap : IsSpace gap) (hoperand : IsReadable (.term operand) text tokens)
    (hprefixed : operand.IsPrefixed → text.head? = some '(')
    (hrenders : Renders (.further .and operands) more)
    (hothers : IsReadable (.further .and operands) more others) :
    IsReadable (.further .and (operand :: operands)) (gap ++ (text ++ more))
      (tokens ++ others) where
  cuts hstops :=
    .space_append hgap ((hoperand.cuts (hrenders.stops hstops)).append (hothers.cuts hstops))
  begins := trivial
  reads := by
    intro left hends
    obtain ⟨hmember, clauses, rfl, hfurther⟩ := hothers.reads left hends
    obtain ⟨clause, rfl, hread⟩ := hoperand.reads _ hmember
    obtain ⟨c, s, token, rest, htext, rfl, hand, hcomparator⟩ := hoperand.begins
    constructor
    · rintro _ ⟨⟩ op rfl
      obtain ⟨hcompares, hc⟩ := hcomparator op rfl
      have hhead := hprefixed hcompares
      rw [htext] at hhead
      exact hc (Option.some.inj hhead)
    · refine ⟨clause :: clauses, rfl, ?_⟩
      rw [List.append_assoc, readFurther_juxtaposed (by simpa using hand) hread, hfurther]

end IsReadable

/-- Whatever renders a part of a normal tree, the part is read from it. -/
theorem Renders.exists_readable {part : Part} {text : List Char} (hrenders : Renders part text)
    (hnormal : part.IsNormal) : ∃ tokens, IsReadable part text tokens := by
  induction hrenders with
  | leaf hvalue => exact IsReadable.leaf hvalue
  | prefixed hop hspace hvalue => exact IsReadable.prefixed hop hspace hvalue
  | comparison hfield hbefore hop hafter hvalue =>
      exact IsReadable.comparison hfield hbefore hop hafter hvalue
  | mark hspace _ hnext ih =>
      obtain ⟨tokens, hoperand⟩ := ih hnormal.operand
      exact ⟨_, .mark hspace hoperand hnext⟩
  | keyword hkeyword hspace _ hnext ih =>
      obtain ⟨tokens, hoperand⟩ := ih hnormal.operand
      exact ⟨_, .keyword hkeyword hspace hoperand hnext⟩
  | group hbefore _ hafter ih =>
      obtain ⟨tokens, hinner⟩ := ih hnormal
      exact ⟨_, .group hbefore hinner hafter⟩
  | single _ ih =>
      obtain ⟨tokens, hmember⟩ := ih (Part.isNormal_member.mpr hnormal)
      exact ⟨_, .single hnormal hmember⟩
  | several _ _ hmore ihfirst ihothers =>
      have hall := hnormal.operands
      obtain ⟨tokens, hfirst⟩ := ihfirst (Part.isNormal_member.mpr (hall _ (by simp)))
      obtain ⟨others, hothers⟩ := ihothers fun operand hmem => hall operand (by simp [hmem])
      exact ⟨_, .several hnormal hfirst hmore hothers⟩
  | last => exact ⟨_, .last⟩
  | connected hbefore _ hconnective hafter hne _ hmore ihoperand ihothers =>
      obtain ⟨tokens, hoperand⟩ := ihoperand (Part.isNormal_member.mpr (hnormal _ (by simp)))
      obtain ⟨others, hothers⟩ := ihothers fun operand hmem => hnormal operand (by simp [hmem])
      exact ⟨_, .connected hbefore hconnective hafter hne hoperand hmore hothers⟩
  | juxtaposed hgap _ _ hprefixed hmore ihoperand ihothers =>
      obtain ⟨tokens, hoperand⟩ := ihoperand (hnormal _ (by simp))
      obtain ⟨others, hothers⟩ := ihothers fun operand hmem => hnormal operand (by simp [hmem])
      exact ⟨_, .juxtaposed hgap hoperand hprefixed hmore hothers⟩

/-- A normal tree is read from every text that renders it. -/
theorem parse_of_isRendering {node : Node} {text : String} (hnormal : node.IsNormal)
    (hrendering : IsRendering node text) : parse text = .ok node := by
  obtain ⟨before, inner, after, htext, hbefore, hrenders, hafter⟩ := hrendering
  obtain ⟨tokens, hreadable⟩ := hrenders.exists_readable hnormal
  have hends : Cuts after [] [] := .space hafter
  have hstops : Stops (after ++ []) := stops_nil.space hafter
  have hcuts : Cuts (before ++ (inner ++ after)) (tokens ++ []) [] :=
    .space_append hbefore ((hreadable.cuts hstops).append hends)
  have hsplit : split text.toList = (tokens, []) := by
    have hnil : split [] = ([], []) := split_of_read_eq_none rfl
    unfold Cuts at hcuts
    simpa [hnil, htext] using hcuts
  obtain ⟨clause, rfl, hread⟩ := hreadable.reads [] (by simp [EndsList, EndsDisjunction])
  have hfound : disjunction? (tokens ++ []) = some (clause, []) := hread
  rw [List.append_nil] at hfound
  exact parse_eq_ok_iff.mpr
    ⟨clause, clauseOf_eq_some_iff.mpr ⟨tokens, split_eq_iff.mp hsplit, hfound⟩, rfl⟩

/-- A word that is no keyword is read as itself. -/
theorem parse_word {text : String} (hwrites : WritesValue text text.toList) :
    parse text = .ok (.leaf text) :=
  parse_of_isRendering .leaf ⟨[], text.toList, [], by simp, isSpace_nil,
    .single (.single (.leaf hwrites)), isSpace_nil⟩

/-! ### Renderings

Every normal tree can be written, with its values in marks, spaces wherever they may stand and
parentheses around its lists. -/

namespace Renders

variable {op : Connective} {node : Node} {text : List Char}

theorem member_of_term (hterm : Renders (.term node) text) : Renders (.member op node) text := by
  cases op with
  | and => exact hterm
  | or => exact .single hterm

/-- A conjunction is a disjunction of one. -/
theorem disjunction_of_list (hlist : Renders (.list op node) text) :
    Renders (.list .or node) text := by
  cases op with
  | and => exact .single hlist
  | or => exact hlist

end Renders

theorem exists_writesOperator {op : Operator} (hop : op ≠ .not) :
    ∃ symbol, WritesOperator op symbol := by
  unfold WritesOperator
  refine ⟨op.display.toList, ?_⟩
  cases op <;> first | decide | exact absurd rfl hop

theorem exists_renders_further (op : Connective) {operands : List Node}
    (hoperands : ∀ operand ∈ operands, ∃ text, Renders (.term operand) text) :
    ∃ text, Renders (.further op operands) text := by
  induction operands with
  | nil => exact ⟨[], .last⟩
  | cons operand operands ih =>
      obtain ⟨text, hoperand⟩ := hoperands operand (by simp)
      obtain ⟨more, hmore⟩ := ih fun operand hmem => hoperands operand (by simp [hmem])
      have hname : WritesConnective op op.name.toList := by
        cases op <;> exact .inr rfl
      exact ⟨_, .connected isSpace_space (by simp) hname isSpace_space (by simp)
        hoperand.member_of_term hmore⟩

theorem exists_renders_term {node : Node} (hnormal : node.IsNormal) :
    ∃ text, Renders (.term node) text := by
  have hvalue : ∀ value, WritesValue value ('"' :: escape '"' value.toList ++ ['"']) :=
    fun value => .quoted (.inl rfl)
  induction hnormal with
  | leaf => exact ⟨_, .leaf (hvalue _)⟩
  | prefixed hop =>
      obtain ⟨symbol, hsymbol⟩ := exists_writesOperator hop
      exact ⟨_, .prefixed hsymbol isSpace_space (hvalue _)⟩
  | comparison hop =>
      obtain ⟨symbol, hsymbol⟩ := exists_writesOperator hop
      exact ⟨_, .comparison (hvalue _) isSpace_space hsymbol isSpace_space (hvalue _)⟩
  | negation _ ih =>
      obtain ⟨text, hoperand⟩ := ih
      have hnot : IsCaseless ['n', 'o', 't'] ['n', 'o', 't'] := rfl
      exact ⟨_, .keyword hnot isSpace_space hoperand (.inl (by simp))⟩
  | @logical op operands hlength _ _ ih =>
      match operands, hlength with
      | first :: second :: rest, _ =>
          obtain ⟨text, hfirst⟩ := ih first (by simp)
          obtain ⟨more, hmore⟩ := exists_renders_further op
            fun operand (hmem : operand ∈ second :: rest) => ih operand (by simp [hmem])
          have hlist := Renders.several (by simp) hfirst.member_of_term hmore
          exact ⟨_, .group isSpace_space hlist.disjunction_of_list isSpace_space⟩

/-- Every normal tree can be written as a text, and is read from every text that it is written as.
-/
theorem parse_renderings {node : Node} (hnormal : node.IsNormal) :
    (∃ text, IsRendering node text) ∧
    ∀ text, IsRendering node text → parse text = .ok node := by
  refine ⟨?_, fun text => parse_of_isRendering hnormal⟩
  obtain ⟨text, hterm⟩ := exists_renders_term hnormal
  exact ⟨String.ofList text, [], text, [], by simp, isSpace_nil, .single hterm.member_of_term,
    isSpace_nil⟩

/-- A conjunction without a connective, of a comparison and a negation. -/
theorem parse_renderings_ann :
    (∃ text, IsRendering (.logical .and [.comparison "name" .eq "Ann \"", .not (.leaf "x")]) text) ∧
    parse "name==\"Ann \\\"\" Not(x) " =
      .ok (.logical .and [.comparison "name" .eq "Ann \"", .not (.leaf "x")]) := by
  have hnormal : (Node.logical .and
      [.comparison "name" .eq "Ann \"", .not (.leaf "x")]).IsNormal := by
    refine .logical (by simp) ?_ (by simp [Node.comparison, Node.not])
    simpa using ⟨.comparison (by simp), .negation .leaf⟩
  have hname : WritesValue "name" "name".toList := .bare (by decide) (by decide) (by decide)
  have hann : WritesValue "Ann \"" _ := .quoted (.inl rfl)
  have hx : WritesValue "x" "x".toList := .bare (by decide) (by decide) (by decide)
  have hequals : WritesOperator .eq ['=', '='] := by decide
  have hnot : IsCaseless ['n', 'o', 't'] ['N', 'o', 't'] := by decide
  have hfirst := Renders.comparison hname isSpace_nil hequals isSpace_nil hann
  have hgroup := Renders.group isSpace_nil (.single (.single (.leaf hx))) isSpace_nil
  have hsecond := Renders.keyword hnot isSpace_nil hgroup (.inr rfl)
  have hbegins : ¬(Node.not (.leaf "x")).IsPrefixed := by
    rintro ⟨_, _, hop, ⟨⟩⟩
    exact hop rfl
  have hfurther := Renders.juxtaposed isSpace_space (by simp) hsecond (absurd · hbegins) .last
  have hlist : Renders (.list .and (.logical .and
      [.comparison "name" .eq "Ann \"", .not (.leaf "x")])) _ :=
    .several (by simp) hfirst hfurther
  obtain ⟨hexists, hread⟩ := parse_renderings hnormal
  exact ⟨hexists, hread _ ⟨[], _, [' '], by decide, isSpace_nil, .single hlist, isSpace_space⟩⟩

end Query

end FieldSearch
