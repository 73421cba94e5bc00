import FieldSearch.Proofs.Condition.Truth
import FieldSearch.Proofs.Query.Normal

/-! The terms of a query, from the left to the right, and the answer of a query given an answer for
each of them. A grammar tree has the terms that it was written with, and negations, groups and lists
around them. The tree that it stands for has the same terms in the same places and the same answer:
a group is answered as what is in it, a list of one as its member, and a list inside another with
the same connective might as well be part of it. -/

namespace FieldSearch

/-- What is asked for at one place of a query. -/
inductive Term
  | keyword (value : String)
  | prefixed (op : Operator) (value : String)
  | comparison (field : String) (op : Operator) (value : String)
  deriving DecidableEq, Repr

/-! ### Trees -/

mutual

/-- The terms of a tree. A comparison of anything but leaves is no term. -/
def Node.terms : Node → List Term
  | .leaf value => [.keyword value]
  | .operator .not operands => Node.allTerms operands
  | .operator op [.leaf value] => [.prefixed op value]
  | .operator op [.leaf field, .leaf value] => [.comparison field op value]
  | .operator _ _ => []
  | .logical _ operands => Node.allTerms operands

def Node.allTerms : List Node → List Term
  | [] => []
  | node :: nodes => node.terms ++ Node.allTerms nodes

end

mutual

/-- The answer of a tree, of which the first term is the one numbered `start`. -/
def Node.answer (given : Nat → Bool) (start : Nat) : Node → Bool
  | .leaf _ => given start
  | .operator .not operands => !Connective.or.answer (Node.answers given start operands)
  | .operator _ _ => given start
  | .logical op operands => op.answer (Node.answers given start operands)

/-- The answers of trees one after another. -/
def Node.answers (given : Nat → Bool) (start : Nat) : List Node → List Bool
  | [] => []
  | node :: nodes =>
    node.answer given start :: Node.answers given (start + node.terms.length) nodes

end

namespace Node

variable (given : Nat → Bool) (start : Nat) (op : Connective)

theorem terms_not (operand : Node) : (not operand).terms = operand.terms := by
  simp [not, terms, allTerms]

theorem answer_not (operand : Node) :
    (not operand).answer given start = !operand.answer given start := by
  simp [not, answer, answers, Connective.answer_singleton]

theorem allTerms_append (nodes more : List Node) :
    allTerms (nodes ++ more) = allTerms nodes ++ allTerms more := by
  induction nodes with
  | nil => rfl
  | cons node nodes ih => rw [List.cons_append, allTerms, allTerms, ih, List.append_assoc]

theorem answers_append (nodes more : List Node) :
    answers given start (nodes ++ more) =
      answers given start nodes ++ answers given (start + (allTerms nodes).length) more := by
  induction nodes generalizing start with
  | nil => rfl
  | cons node nodes ih =>
      rw [List.cons_append, answers, answers, ih, List.cons_append, allTerms, List.length_append,
        Nat.add_assoc]

theorem allTerms_spliced (node : Node) : allTerms (spliced op node) = node.terms := by
  cases node with
  | leaf | operator => simp [spliced, allTerms]
  | logical inner operands =>
      by_cases hsame : inner = op
      · simp [spliced, hsame, terms]
      · simp [spliced, hsame, allTerms]

theorem answer_spliced (node : Node) :
    op.answer (answers given start (spliced op node)) = node.answer given start := by
  cases node with
  | leaf | operator => exact op.answer_singleton _
  | logical inner operands =>
      by_cases hsame : inner = op
      · simp [spliced, hsame, answer]
      · simp [spliced, hsame, answers, Connective.answer_singleton]

theorem allTerms_flatMap_spliced (nodes : List Node) :
    allTerms (nodes.flatMap (spliced op)) = allTerms nodes := by
  induction nodes with
  | nil => rfl
  | cons node nodes ih => rw [List.flatMap_cons, allTerms_append, allTerms_spliced, ih, allTerms]

/-- Splicing leaves the answer of a list as it is: what is spliced in is answered together just as
the operand was that it comes from, and the operands behind it keep their terms. -/
theorem answer_flatMap_spliced (nodes : List Node) :
    op.answer (answers given start (nodes.flatMap (spliced op))) =
      op.answer (answers given start nodes) := by
  induction nodes generalizing start with
  | nil => rfl
  | cons node nodes ih =>
      rw [List.flatMap_cons, answers_append, Connective.answer_append, answer_spliced,
        allTerms_spliced, ih, answers, ← Connective.answer_cons]

/-- Joining trees keeps their terms. -/
theorem terms_join (nodes : List Node) : (join op nodes).terms = allTerms nodes := by
  rw [← allTerms_flatMap_spliced op nodes]
  unfold join
  split
  next single hsingle => rw [hsingle, allTerms, allTerms, List.append_nil]
  next => rw [terms]

/-- Joined trees are answered as the list of them. -/
theorem answer_join (nodes : List Node) :
    (join op nodes).answer given start = op.answer (answers given start nodes) := by
  rw [← answer_flatMap_spliced given start op nodes]
  unfold join
  split
  next single hsingle => rw [hsingle, answers, answers, Connective.answer_singleton]
  next => rw [answer]

end Node

/-! ### Grammar trees -/

namespace Query

mutual

/-- The terms of a grammar tree, as they were written. -/
def Clause.terms : Clause → List Term
  | .value literal => [.keyword literal.text]
  | .prefixed op literal => [.prefixed op literal.text]
  | .comparison field op literal => [.comparison field.text op literal.text]
  | .group inner => inner.terms
  | .negation operand => operand.terms
  | .list _ first rest => first.terms ++ Clause.allTerms rest

def Clause.allTerms : List Clause → List Term
  | [] => []
  | clause :: clauses => clause.terms ++ Clause.allTerms clauses

end

mutual

/-- The answer of a grammar tree, of which the first term is the one numbered `start`. -/
def Clause.answer (given : Nat → Bool) (start : Nat) : Clause → Bool
  | .value _ => given start
  | .prefixed _ _ => given start
  | .comparison _ _ _ => given start
  | .group inner => inner.answer given start
  | .negation operand => !operand.answer given start
  | .list op first rest =>
    op.answer
      (first.answer given start :: Clause.answers given (start + first.terms.length) rest)

def Clause.answers (given : Nat → Bool) (start : Nat) : List Clause → List Bool
  | [] => []
  | clause :: clauses =>
    clause.answer given start :: Clause.answers given (start + clause.terms.length) clauses

end

/-- The tree that the clause stands for has its terms, and its answer wherever they are numbered
from. -/
structure Clause.IsKept (clause : Clause) : Prop where
  terms : clause.toNode.terms = clause.terms
  answer (given : Nat → Bool) (start : Nat) :
    clause.toNode.answer given start = clause.answer given start

namespace Clause

theorem allTerms_toNodes {clauses : List Clause} (hkept : ∀ clause ∈ clauses, clause.IsKept) :
    Node.allTerms (toNodes clauses) = allTerms clauses := by
  induction clauses with
  | nil => rfl
  | cons clause clauses ih =>
      obtain ⟨hclause, hothers⟩ := List.forall_mem_cons.mp hkept
      rw [toNodes, Node.allTerms, allTerms, hclause.terms, ih hothers]

theorem answers_toNodes {clauses : List Clause} (hkept : ∀ clause ∈ clauses, clause.IsKept)
    (given : Nat → Bool) (start : Nat) :
    Node.answers given start (toNodes clauses) = answers given start clauses := by
  induction clauses generalizing start with
  | nil => rfl
  | cons clause clauses ih =>
      obtain ⟨hclause, hothers⟩ := List.forall_mem_cons.mp hkept
      rw [toNodes, Node.answers, answers, hclause.answer, hclause.terms, ih hothers]

/-- A list is kept where its members are, though it may be spliced or collapse. -/
theorem list_isKept {op : Connective} {first : Clause} {rest : List Clause}
    (hfirst : first.IsKept) (hrest : ∀ clause ∈ rest, clause.IsKept) :
    (list op first rest).IsKept where
  terms := by
    rw [toNode, Node.terms_join, Node.allTerms, hfirst.terms, allTerms_toNodes hrest, terms]
  answer given start := by
    rw [toNode, Node.answer_join, Node.answers, hfirst.answer, hfirst.terms,
      answers_toNodes hrest, answer]

theorem IsKept.negation {operand : Clause} (hoperand : operand.IsKept) :
    (negation operand).IsKept where
  terms := by rw [toNode, Node.terms_not, hoperand.terms, Clause.terms]
  answer given start := by rw [toNode, Node.answer_not, hoperand.answer, Clause.answer]

theorem IsKept.group {inner : Clause} (hinner : inner.IsKept) : (group inner).IsKept where
  terms := by rw [toNode, hinner.terms, Clause.terms]
  answer given start := by rw [toNode, hinner.answer, Clause.answer]

theorem comparison_isKept {field value : Literal} {op : Operator} (hop : op ≠ .not) :
    (comparison field op value).IsKept where
  terms := by simp [toNode, Node.comparison, Node.terms, terms]
  answer given start := by simp [toNode, Node.comparison, Node.answer, answer]

theorem prefixed_isKept {value : Literal} {op : Operator} (hop : op ≠ .not) :
    (prefixed op value).IsKept where
  terms := by simp [toNode, Node.terms, terms]
  answer given start := by simp [toNode, Node.answer, answer]

/-- Every tree of the grammar is kept. -/
theorem IsTree.isKept {nonterminal : Nonterminal} {clause : Clause}
    (htree : clause.IsTree nonterminal) : clause.IsKept := by
  induction htree with
  | disjunction _ _ ihfirst ihrest => exact list_isKept ihfirst ihrest
  | conjunction _ _ ihfirst ihrest => exact list_isKept ihfirst ihrest
  | negated _ ih => exact ih.negation
  | affirmed _ ih => exact ih
  | group _ ih => exact ih.group
  | comparison hop => exact comparison_isKept hop
  | prefixed hop => exact prefixed_isKept hop
  | value => exact ⟨rfl, fun _ _ => rfl⟩

end Clause

/-- Reading a text keeps the terms of its grammar tree, each in its place, and their connection:
whatever the answers to the single terms are, both trees have the same answer. -/
theorem parse_keeps_terms {text : String} {node : Node} (hparse : parse text = .ok node) :
    ∃ clause, clauseOf text = .ok (some clause) ∧ clause.IsTree .disjunction ∧
      node.terms = clause.terms ∧
      ∀ given : Nat → Bool, node.answer given 0 = clause.answer given 0 := by
  obtain ⟨clause, hclause, rfl⟩ := parse_eq_ok_iff.mp hparse
  have htree := clauseOf_isTree hclause
  exact ⟨clause, hclause, htree, htree.isKept.terms, fun given => htree.isKept.answer given 0⟩

/-- One group is spliced into a group around it under a negation, another into the list of all. -/
theorem parse_keeps_terms_nested :
    ∃ clause, clauseOf "not (a | (b=c | >\"\\d\")) (e f)" = .ok (some clause) ∧
      clause.IsTree .disjunction ∧
      clause.terms = [.keyword "a", .comparison "b" .eq "c", .prefixed .gt "d", .keyword "e",
        .keyword "f"] ∧
      ∀ given : Nat → Bool,
        clause.answer given 0 = (!(given 0 || given 1 || given 2) && given 3 && given 4) := by
  have hparse : parse "not (a | (b=c | >\"\\d\")) (e f)" = .ok (.logical .and
      [.not (.logical .or [.leaf "a", .comparison "b" .eq "c", .operator .gt [.leaf "d"]]),
        .leaf "e", .leaf "f"]) := by
    decide +kernel
  obtain ⟨clause, hclause, htree, hterms, hanswer⟩ := parse_keeps_terms hparse
  refine ⟨clause, hclause, htree, ?_, fun given => ?_⟩
  · rw [← hterms]
    rfl
  · rw [← hanswer given]
    simp [Node.answer, Node.answers, Node.not, Node.comparison, Node.terms, Node.allTerms,
      Connective.answer, Bool.and_assoc, Bool.or_assoc]

end Query

end FieldSearch
