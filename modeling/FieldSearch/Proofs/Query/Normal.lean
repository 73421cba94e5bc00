import FieldSearch.Proofs.Query.Language

/-! Normal trees. A query text is always read as a tree in normal form: comparisons have a value and
perhaps a field, both of them leaves, negations have one operand, and a list has at least two, none
of which is a list with the same connective. The grammar nests lists deeper than that, and a group
may hold a list of any kind; joining splices what hangs together in the same way and lets a list of
one stand for its member. What the readers find are trees of the grammar, and normal form is a
property of what such a tree stands for. -/

namespace FieldSearch

/-- Trees as they are read from texts. -/
inductive Node.IsNormal : Node → Prop
  | leaf {value} : IsNormal (.leaf value)
  | prefixed {op value} : op ≠ .not → IsNormal (.operator op [.leaf value])
  | comparison {field op value} : op ≠ .not → IsNormal (.comparison field op value)
  | negation {operand} : IsNormal operand → IsNormal (.not operand)
  | logical {op operands} : 2 ≤ operands.length → (∀ operand ∈ operands, IsNormal operand) →
      (∀ operand ∈ operands, ∀ nested, operand ≠ .logical op nested) →
      IsNormal (.logical op operands)

namespace Node

variable {op : Connective} {node : Node} {nodes : List Node}

theorem IsNormal.operand (hnormal : (Node.not node).IsNormal) : node.IsNormal := by
  cases hnormal with
  | prefixed hop => exact absurd rfl hop
  | negation hoperand => exact hoperand

theorem IsNormal.operands (hnormal : (Node.logical op nodes).IsNormal) :
    ∀ operand ∈ nodes, operand.IsNormal := by
  cases hnormal with
  | logical _ hoperands => exact hoperands

theorem spliced_of_ne (hother : ∀ nested, node ≠ logical op nested) : spliced op node = [node] := by
  cases node with
  | leaf | operator => rfl
  | logical inner operands =>
      have hinner : inner ≠ op := by
        rintro rfl
        exact hother operands rfl
      simp [spliced, hinner]

/-- A normal tree gives a list operands that are normal and need no further splicing. -/
theorem IsNormal.spliced (hnormal : node.IsNormal) :
    spliced op node ≠ [] ∧ ∀ operand ∈ spliced op node,
      operand.IsNormal ∧ ∀ nested, operand ≠ Node.logical op nested := by
  by_cases hsame : ∃ nested, node = Node.logical op nested
  · obtain ⟨nested, rfl⟩ := hsame
    cases hnormal with
    | logical hlength hoperands hflat =>
        have hspliced : Node.spliced op (Node.logical op nested) = nested := by simp [Node.spliced]
        rw [hspliced]
        exact ⟨List.ne_nil_of_length_pos (by omega),
          fun operand hoperand => ⟨hoperands operand hoperand, hflat operand hoperand⟩⟩
  · have hother : ∀ nested, node ≠ Node.logical op nested := fun nested heq => hsame ⟨nested, heq⟩
    rw [spliced_of_ne hother]
    simpa using ⟨hnormal, hother⟩

/-- Normal trees are joined to a normal tree. -/
theorem IsNormal.join (hsome : nodes ≠ []) (hnormal : ∀ node ∈ nodes, node.IsNormal) :
    (join op nodes).IsNormal := by
  have hoperands : ∀ operand ∈ nodes.flatMap (Node.spliced op),
      operand.IsNormal ∧ ∀ nested, operand ≠ Node.logical op nested := by
    intro operand hoperand
    obtain ⟨node, hnode, hmem⟩ := List.mem_flatMap.mp hoperand
    exact (hnormal node hnode).spliced.2 operand hmem
  have hsome' : nodes.flatMap (Node.spliced op) ≠ [] := by
    obtain ⟨first, rest, rfl⟩ := List.exists_cons_of_ne_nil hsome
    simpa using fun hnil => absurd hnil (hnormal first (by simp)).spliced.1
  unfold Node.join
  match hspliced : nodes.flatMap (Node.spliced op) with
  | [] => exact absurd hspliced hsome'
  | [single] => exact (hoperands single (by simp [hspliced])).1
  | first :: second :: rest =>
      rw [hspliced] at hoperands
      exact .logical (by simp) (fun operand hoperand => (hoperands operand hoperand).1)
        fun operand hoperand => (hoperands operand hoperand).2

end Node

namespace Query

theorem Clause.toNodes_eq_map (clauses : List Clause) : toNodes clauses = clauses.map toNode := by
  induction clauses with
  | nil => rfl
  | cons clause clauses ih => simp [toNodes, ih]

/-- The grammar trees of a rule: lists of conjunctions, lists of negations, and so on down to the
terms. No comparison is made by `not`. -/
inductive Clause.IsTree : Nonterminal → Clause → Prop
  | disjunction {first rest} : IsTree .conjunction first →
      (∀ clause ∈ rest, IsTree .conjunction clause) → IsTree .disjunction (.list .or first rest)
  | conjunction {first rest} : IsTree .negation first →
      (∀ clause ∈ rest, IsTree .negation clause) → IsTree .conjunction (.list .and first rest)
  | negated {operand} : IsTree .negation operand → IsTree .negation (.negation operand)
  | affirmed {clause} : IsTree .term clause → IsTree .negation clause
  | group {inner} : IsTree .disjunction inner → IsTree .term (.group inner)
  | comparison {field op value} : op ≠ .not → IsTree .term (.comparison field op value)
  | prefixed {op value} : op ≠ .not → IsTree .term (.prefixed op value)
  | value {value} : IsTree .term (.value value)

theorem Clause.list_isNormal {op : Connective} {first : Clause} {rest : List Clause}
    (hfirst : first.toNode.IsNormal) (hrest : ∀ clause ∈ rest, clause.toNode.IsNormal) :
    (list op first rest).toNode.IsNormal := by
  unfold toNode
  rw [toNodes_eq_map]
  apply Node.IsNormal.join (List.cons_ne_nil _ _)
  simpa using ⟨hfirst, hrest⟩

/-- What a grammar tree stands for is normal. -/
theorem Clause.IsTree.isNormal {nonterminal : Nonterminal} {clause : Clause}
    (htree : clause.IsTree nonterminal) : clause.toNode.IsNormal := by
  induction htree with
  | disjunction _ _ ihfirst ihrest => exact list_isNormal ihfirst ihrest
  | conjunction _ _ ihfirst ihrest => exact list_isNormal ihfirst ihrest
  | negated _ ih => exact .negation ih
  | affirmed _ ih => exact ih
  | group _ ih => exact ih
  | comparison hop => exact .comparison hop
  | prefixed hop => exact .prefixed hop
  | value => exact .leaf

/-! ### Reading

No symbol of a comparison is `not`, and the readers find grammar trees. -/

namespace Sentence

/-- Every comparator compares. -/
def AllCompare (tokens : List Token) : Prop :=
  .comparator .not ∉ tokens

/-- What is found is a tree of the rule. -/
def FindsTree (nonterminal : Nonterminal) (tokens : List Token)
    (found : Option (Clause × List Token)) : Prop :=
  AllCompare tokens → ∀ clause rest, found = some (clause, rest) →
    clause.IsTree nonterminal ∧ AllCompare rest

/-- All that is found are trees of the rule. -/
def FindsTrees (nonterminal : Nonterminal) (tokens : List Token)
    (found : List Clause × List Token) : Prop :=
  AllCompare tokens → (∀ clause ∈ found.1, clause.IsTree nonterminal) ∧ AllCompare found.2

theorem AllCompare.tail {token : Token} {tokens : List Token}
    (hall : AllCompare (token :: tokens)) : AllCompare tokens :=
  fun hmem => hall (List.mem_cons_of_mem token hmem)

theorem AllCompare.afterAnd {tokens : List Token} (hall : AllCompare tokens) :
    AllCompare (afterAnd tokens) := by
  rcases eq_and_cons_or_afterAnd_eq tokens with hand | hand
  · rw [hand] at hall
    exact hall.tail
  · rwa [hand]

theorem IsPlainTerm.isTree {clause : Clause} {tokens : List Token}
    (hplain : IsPlainTerm clause tokens) (hall : AllCompare tokens) : clause.IsTree .term := by
  cases hplain with
  | comparison => exact .comparison (by rintro rfl; simp [AllCompare] at hall)
  | prefixed => exact .prefixed (by rintro rfl; simp [AllCompare] at hall)
  | value => exact .value

theorem negation?_isTree {tokens : List Token}
    (hnegation : ∀ after, after.length < tokens.length →
      FindsTree .negation after (negation? after))
    (hdisjunction : ∀ after, after.length < tokens.length →
      FindsTree .disjunction after (disjunction? after)) :
    FindsTree .negation tokens (negation? tokens) := by
  intro hall clause rest hfound
  rcases negation?_eq_some hfound with ⟨after, operand, rfl, rfl, hoperand⟩ |
    ⟨after, inner, rfl, rfl, hinner⟩ | ⟨used, rfl, hused⟩
  · obtain ⟨htree, hrest⟩ := hnegation after (by simp) hall.tail operand rest hoperand
    exact ⟨.negated htree, hrest⟩
  · obtain ⟨htree, hrest⟩ := hdisjunction after (by simp) hall.tail inner _ hinner
    exact ⟨.affirmed (.group htree), hrest.tail⟩
  · exact ⟨.affirmed (hused.isTree fun hmem => hall (List.mem_append_left _ hmem)),
      fun hmem => hall (List.mem_append_right _ hmem)⟩

/-- Where a tail begins with a member, the others need only be trees like it. -/
theorem membersFrom_areTrees {nonterminal : Nonterminal} {tokens after : List Token}
    {further : List Token → List Clause × List Token} {found : Option (Clause × List Token)}
    (hmember : FindsTree nonterminal after found) (hafter : AllCompare tokens → AllCompare after)
    (hfurther : ∀ clause rest, found = some (clause, rest) →
      FindsTrees nonterminal rest (further rest)) :
    FindsTrees nonterminal tokens (membersFrom tokens further found) := by
  intro hall
  cases found with
  | none => exact ⟨by simp [membersFrom], hall⟩
  | some found =>
      obtain ⟨member, rest⟩ := found
      obtain ⟨htree, hrest⟩ := hmember (hafter hall) member rest rfl
      obtain ⟨hothers, hleft⟩ := hfurther member rest rfl hrest
      exact ⟨by simpa [membersFrom] using ⟨htree, hothers⟩, hleft⟩

/-- A first member with the others makes a list. -/
theorem list_isTree {member nonterminal : Nonterminal} {tokens : List Token} {op : Connective}
    {further : List Token → List Clause × List Token} {found : Option (Clause × List Token)}
    (hlist : ∀ first rest, first.IsTree member → (∀ clause ∈ rest, clause.IsTree member) →
      (Clause.list op first rest).IsTree nonterminal)
    (hfirst : FindsTree member tokens found)
    (hfurther : ∀ clause rest, found = some (clause, rest) →
      FindsTrees member rest (further rest)) :
    FindsTree nonterminal tokens (found.map fun (first, rest) =>
      (.list op first (further rest).1, (further rest).2)) := by
  intro hall clause rest hfound
  obtain ⟨⟨first, middle⟩, rfl, ⟨⟩⟩ := Option.map_eq_some_iff.mp hfound
  obtain ⟨htree, hmiddle⟩ := hfirst hall first middle rfl
  obtain ⟨hothers, hleft⟩ := hfurther first middle rfl hmiddle
  exact ⟨hlist first _ htree hothers, hleft⟩

/-- A disjunction that is found is one. -/
theorem disjunction?_isTree (tokens : List Token) :
    FindsTree .disjunction tokens (disjunction? tokens) := by
  refine reader_induction (fun tokens => FindsTree .negation tokens (negation? tokens))
    (fun tokens => FindsTrees .negation tokens (furtherConditions tokens))
    (fun tokens => FindsTree .conjunction tokens (conjunction? tokens))
    (fun tokens => FindsTrees .conjunction tokens (furtherAlternatives tokens))
    (fun tokens => FindsTree .disjunction tokens (disjunction? tokens))
    (fun _ => negation?_isTree) ?conditions ?conjunction ?alternatives ?disjunction tokens
  case conditions =>
      intro tokens hnegation hconditions
      rw [furtherConditions_eq]
      have hle := length_afterAnd_le tokens
      refine membersFrom_areTrees (hnegation _ hle) AllCompare.afterAnd fun clause rest hmember => ?_
      exact hconditions rest (Nat.lt_of_lt_of_le (negation?_shorter hmember) hle)
  case conjunction =>
      intro tokens hnegation hconditions
      rw [conjunction?_eq]
      exact list_isTree (fun _ _ => .conjunction) hnegation fun clause rest hfirst =>
        hconditions rest (negation?_shorter hfirst)
  case alternatives =>
      intro tokens hconjunction halternatives
      by_cases hor : tokens.head? = some .or
      · obtain ⟨after, rfl⟩ := List.head?_eq_some_iff.mp hor
        rw [furtherAlternatives_or]
        refine membersFrom_areTrees (hconjunction after (by simp)) AllCompare.tail
          fun clause rest hmember => halternatives rest ?_
        exact Nat.lt_succ_of_lt (conjunction?_shorter hmember)
      · rw [furtherAlternatives_of_ne hor]
        exact fun hall => ⟨by simp, hall⟩
  case disjunction =>
      intro tokens hconjunction halternatives
      rw [disjunction?_eq]
      exact list_isTree (fun _ _ => .disjunction) hconjunction fun clause rest hfirst =>
        halternatives rest (conjunction?_shorter hfirst)

end Sentence

/-- A comparator is written by the symbol of a comparison. -/
theorem Spelled.ne_comparator_not {token : Token} {chars : List Char}
    (hspelled : Spelled token chars) : token ≠ .comparator .not := by
  cases hspelled with
  | symbol hmem =>
      have hcompare : ∀ entry ∈ Token.symbols, entry.2 ≠ .comparator .not := by decide
      exact hcompare _ hmem
  | run =>
      rcases Token.ofRun_cases ‹_› with ⟨-, hkeyword⟩ | ⟨-, hword⟩
      · rintro heq
        simp [heq] at hkeyword
      · simp [hword]
  | quoted => simp

theorem Splits.allCompare {s : List Char} {tokens : List Token} (hsplits : Splits s tokens) :
    Sentence.AllCompare tokens := by
  induction hsplits with
  | nil => simp [Sentence.AllCompare]
  | cons _ htoken _ ih =>
      obtain ⟨written, -, hspelled, -⟩ := htoken
      intro hmem
      rcases List.mem_cons.mp hmem with rfl | hrest
      · exact hspelled.ne_comparator_not rfl
      · exact ih hrest

/-- What a text is read as is a tree of the grammar. -/
theorem clauseOf_isTree {text : String} {clause : Clause}
    (hclause : clauseOf text = .ok (some clause)) : clause.IsTree .disjunction := by
  obtain ⟨tokens, hsplits, hfound⟩ := clauseOf_eq_some_iff.mp hclause
  exact (Sentence.disjunction?_isTree tokens hsplits.allCompare clause [] hfound).1

/-- What a text is read as is in normal form. -/
theorem parse_isNormal {text : String} {node : Node} (hparse : parse text = .ok node) :
    node.IsNormal := by
  obtain ⟨clause, hclause, rfl⟩ := parse_eq_ok_iff.mp hparse
  exact (clauseOf_isTree hclause).isNormal

end Query

end FieldSearch
