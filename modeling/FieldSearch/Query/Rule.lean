/-!
The rules of the query language, by name. Some describe places where a query may fail, others only
group alternatives and are never named in a message.
-/

namespace FieldSearch.Query

inductive Rule
  | eoi | query | disjunction | conjunction | negation | group | comparison | prefixComparison
  | comparator | opAnd | opOr | opNot | kwAnd | kwOr | kwNot | keyword
  | quoted | dqInner | sqInner | escape | word
  | term | value | wordChar | whitespace
  deriving DecidableEq, Repr

namespace Rule

/-- Every rule, in the order in which messages list them. -/
def all : List Rule :=
  [eoi, query, disjunction, conjunction, negation, group, comparison, prefixComparison, comparator,
    opAnd, opOr, opNot, kwAnd, kwOr, kwNot, keyword, quoted, dqInner, sqInner, escape, word,
    term, value, wordChar, whitespace]

def name : Rule → String
  | eoi => "EOI"
  | query => "query"
  | disjunction => "disjunction"
  | conjunction => "conjunction"
  | negation => "negation"
  | group => "group"
  | comparison => "comparison"
  | prefixComparison => "prefix_comparison"
  | comparator => "comparator"
  | opAnd => "op_and"
  | opOr => "op_or"
  | opNot => "op_not"
  | kwAnd => "kw_and"
  | kwOr => "kw_or"
  | kwNot => "kw_not"
  | keyword => "keyword"
  | quoted => "quoted"
  | dqInner => "dq_inner"
  | sqInner => "sq_inner"
  | escape => "escape"
  | word => "word"
  | term => "term"
  | value => "value"
  | wordChar => "word_char"
  | whitespace => "WHITESPACE"

/-- The rule with a name. The end of a text is a place to fail at, but not a rule to ask for. -/
def ofName? (text : String) : Option Rule :=
  all.find? fun rule => rule != eoi && rule.name == text

end Rule

end FieldSearch.Query
