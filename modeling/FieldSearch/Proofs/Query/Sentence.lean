import FieldSearch.Proofs.Query.Token

/-! Sentences of the query language, and reading them without choice. The rules leave open where a
value ends: with a comparator and a value behind it, it may be compared or stand for itself before a
comparison of its own. A reader that always compares reads every sentence all the same, since what
it takes from the next member was that whole member. -/

namespace FieldSearch.Query

inductive Nonterminal
  | disjunction | alternatives | conjunction | conditions | negation | term
  deriving DecidableEq, Repr

/-- The rules of the language. -/
inductive Derives : Nonterminal → List Token → Prop
  | disjunction {first rest} : Derives .conjunction first → Derives .alternatives rest →
      Derives .disjunction (first ++ rest)
  | noAlternative : Derives .alternatives []
  | alternative {member rest} : Derives .conjunction member → Derives .alternatives rest →
      Derives .alternatives (.or :: member ++ rest)
  | conjunction {first rest} : Derives .negation first → Derives .conditions rest →
      Derives .conjunction (first ++ rest)
  | noCondition : Derives .conditions []
  | joined {member rest} : Derives .negation member → Derives .conditions rest →
      Derives .conditions (.and :: member ++ rest)
  | adjacent {member rest} : Derives .negation member → Derives .conditions rest →
      Derives .conditions (member ++ rest)
  | negated {operand} : Derives .negation operand → Derives .negation (.not :: operand)
  | affirmed {tokens} : Derives .term tokens → Derives .negation tokens
  | group {inner} : Derives .disjunction inner → Derives .term (.opening :: inner ++ [.closing])
  | comparison {field op value} :
      Derives .term [.value field, .comparator op, .value value]
  | prefixed {op value} : Derives .term [.comparator op, .value value]
  | value {value} : Derives .term [.value value]

namespace Sentence

/-- What was read from the front of the tokens. -/
structure Parsed (tokens : List Token) where
  clause : Clause
  rest : List Token
  shorter : rest.length < tokens.length

/-- Further members of a list. -/
structure Tail (tokens : List Token) where
  members : List Clause
  rest : List Token
  le : rest.length ≤ tokens.length

def Tail.nothing (tokens : List Token) : Tail tokens :=
  ⟨[], tokens, Nat.le_refl _⟩

def Tail.cons {tokens after : List Token} (member : Parsed after)
    (le : after.length ≤ tokens.length) (tail : Tail member.rest) : Tail tokens :=
  ⟨member.clause :: tail.members, tail.rest, by
    have := member.shorter
    have := tail.le
    omega⟩

def listOf {tokens : List Token} (op : Connective) (first : Parsed tokens)
    (tail : Tail first.rest) : Parsed tokens :=
  ⟨.list op first.clause tail.members, tail.rest, Nat.lt_of_le_of_lt tail.le first.shorter⟩

/-- The tokens behind a connective, if there is one. -/
def afterAnd : List Token → List Token
  | .and :: tokens => tokens
  | tokens => tokens

theorem eq_and_cons_or_afterAnd_eq (tokens : List Token) :
    tokens = .and :: afterAnd tokens ∨ afterAnd tokens = tokens := by
  unfold afterAnd
  split <;> simp

theorem length_afterAnd_le (tokens : List Token) : (afterAnd tokens).length ≤ tokens.length := by
  unfold afterAnd
  split <;> simp

mutual

def disjunction (tokens : List Token) : Option (Parsed tokens) :=
  match conjunction tokens with
  | none => none
  | some first =>
    have := first.shorter
    some (listOf .or first (alternatives first.rest))
termination_by 4 * tokens.length + 3

def alternatives (tokens : List Token) : Tail tokens :=
  match tokens with
  | .or :: after =>
    match conjunction after with
    | none => .nothing _
    | some member =>
      have := member.shorter
      .cons member (by simp) (alternatives member.rest)
  | tokens => .nothing tokens
termination_by 4 * tokens.length + 3

def conjunction (tokens : List Token) : Option (Parsed tokens) :=
  match negation tokens with
  | none => none
  | some first =>
    have := first.shorter
    some (listOf .and first (conditions first.rest))
termination_by 4 * tokens.length + 2

def conditions (tokens : List Token) : Tail tokens :=
  have hafter := length_afterAnd_le tokens
  match negation (afterAnd tokens) with
  | none => .nothing tokens
  | some member =>
    have := member.shorter
    .cons member hafter (conditions member.rest)
termination_by 4 * tokens.length + 2

def negation (tokens : List Token) : Option (Parsed tokens) :=
  match tokens with
  | .not :: after =>
    (negation after).map fun operand =>
      ⟨.negation operand.clause, operand.rest, Nat.lt_succ_of_lt operand.shorter⟩
  | .opening :: after =>
    match disjunction after with
    | some ⟨inner, .closing :: rest, shorter⟩ =>
      some ⟨.group inner, rest, by simp only [List.length_cons] at *; omega⟩
    | _ => none
  | .value field :: .comparator op :: .value value :: rest =>
    some ⟨.comparison field op value, rest, by simp only [List.length_cons]; omega⟩
  | .comparator op :: .value value :: rest =>
    some ⟨.prefixed op value, rest, by simp only [List.length_cons]; omega⟩
  | .value value :: rest => some ⟨.value value, rest, by simp⟩
  | _ => none
termination_by 4 * tokens.length + 1

end

/-! ### Outcomes

What the readers find, with the tokens left, and how each of them is made of the others. -/

def Parsed.outcome {tokens : List Token} (parsed : Parsed tokens) : Clause × List Token :=
  (parsed.clause, parsed.rest)

def Tail.outcome {tokens : List Token} (tail : Tail tokens) : List Clause × List Token :=
  (tail.members, tail.rest)

def disjunction? (tokens : List Token) : Option (Clause × List Token) :=
  (disjunction tokens).map Parsed.outcome

def furtherAlternatives (tokens : List Token) : List Clause × List Token :=
  (alternatives tokens).outcome

def conjunction? (tokens : List Token) : Option (Clause × List Token) :=
  (conjunction tokens).map Parsed.outcome

def furtherConditions (tokens : List Token) : List Clause × List Token :=
  (conditions tokens).outcome

def negation? (tokens : List Token) : Option (Clause × List Token) :=
  (negation tokens).map Parsed.outcome

theorem negation?_shorter {tokens rest : List Token} {clause : Clause}
    (hfound : negation? tokens = some (clause, rest)) : rest.length < tokens.length := by
  obtain ⟨parsed, -, ⟨⟩⟩ := Option.map_eq_some_iff.mp hfound
  exact parsed.shorter

theorem conjunction?_shorter {tokens rest : List Token} {clause : Clause}
    (hfound : conjunction? tokens = some (clause, rest)) : rest.length < tokens.length := by
  obtain ⟨parsed, -, ⟨⟩⟩ := Option.map_eq_some_iff.mp hfound
  exact parsed.shorter

theorem disjunction?_eq (tokens : List Token) :
    disjunction? tokens = (conjunction? tokens).map fun (first, rest) =>
      (.list .or first (furtherAlternatives rest).1, (furtherAlternatives rest).2) := by
  unfold disjunction? conjunction?
  rw [disjunction]
  cases conjunction tokens <;> rfl

theorem conjunction?_eq (tokens : List Token) :
    conjunction? tokens = (negation? tokens).map fun (first, rest) =>
      (.list .and first (furtherConditions rest).1, (furtherConditions rest).2) := by
  unfold conjunction? negation?
  rw [conjunction]
  cases negation tokens <;> rfl

/-- The members of a tail that begins with this one, or none of them, with all tokens left. -/
def membersFrom (tokens : List Token) (further : List Token → List Clause × List Token) :
    Option (Clause × List Token) → List Clause × List Token
  | none => ([], tokens)
  | some (member, rest) => (member :: (further rest).1, (further rest).2)

theorem furtherAlternatives_or (tokens : List Token) :
    furtherAlternatives (.or :: tokens) =
      membersFrom (.or :: tokens) furtherAlternatives (conjunction? tokens) := by
  unfold furtherAlternatives conjunction?
  rw [alternatives]
  cases conjunction tokens <;> rfl

theorem furtherAlternatives_of_ne {tokens : List Token} (hor : tokens.head? ≠ some .or) :
    furtherAlternatives tokens = ([], tokens) := by
  unfold furtherAlternatives alternatives
  split
  · simp at hor
  · rfl

theorem furtherConditions_eq (tokens : List Token) :
    furtherConditions tokens =
      membersFrom tokens furtherConditions (negation? (afterAnd tokens)) := by
  unfold negation?
  rw [furtherConditions, conditions]
  cases negation (afterAnd tokens) <;> rfl

theorem negation?_not (tokens : List Token) :
    negation? (.not :: tokens) =
      (negation? tokens).map fun (operand, rest) => (.negation operand, rest) := by
  unfold negation?
  rw [negation]
  cases negation tokens <;> rfl

theorem negation?_opening (tokens : List Token) :
    negation? (.opening :: tokens) =
      match disjunction? tokens with
      | some (inner, .closing :: rest) => some (.group inner, rest)
      | _ => none := by
  unfold negation? disjunction?
  rw [negation]
  cases hinner : disjunction tokens with
  | none => rfl
  | some inner =>
      obtain ⟨clause, rest, hshorter⟩ := inner
      cases rest with
      | nil => rfl
      | cons token rest => cases token <;> rfl

theorem negation?_comparison (field value : Literal) (op : Operator) (rest : List Token) :
    negation? (.value field :: .comparator op :: .value value :: rest) =
      some (.comparison field op value, rest) := by
  unfold negation?
  rw [negation]
  rfl

theorem negation?_prefixed (op : Operator) (value : Literal) (rest : List Token) :
    negation? (.comparator op :: .value value :: rest) = some (.prefixed op value, rest) := by
  unfold negation?
  rw [negation]
  rfl

theorem negation?_value {value : Literal} {rest : List Token}
    (halone : ∀ op compared more, rest ≠ .comparator op :: .value compared :: more) :
    negation? (.value value :: rest) = some (.value value, rest) := by
  unfold negation?
  rw [negation]
  · rfl
  · exact fun op compared more => halone op compared more

/-- No negation begins with a connective that joins, or where a group ends. -/
theorem negation?_eq_none {tokens : List Token}
    (hhead : ∀ token ∈ tokens.head?, token = .and ∨ token = .or ∨ token = .closing) :
    negation? tokens = none := by
  unfold negation?
  cases tokens with
  | nil =>
      rw [negation]
      · rfl
      all_goals simp
  | cons token tokens =>
      rcases hhead token rfl with rfl | rfl | rfl
      all_goals
        rw [negation]
        · rfl
        all_goals simp

theorem negation?_comparator {op : Operator} {rest : List Token}
    (halone : ∀ value more, rest ≠ .value value :: more) :
    negation? (.comparator op :: rest) = none := by
  unfold negation?
  rw [negation]
  · rfl
  all_goals simp_all

/-- An induction that follows the readers, of which each hands over to those below it at once and to
itself and those above it behind some token. -/
theorem reader_induction {α : Type}
    (negation conditions conjunction alternatives disjunction : List α → Prop)
    (hnegation : ∀ xs, (∀ ys, ys.length < xs.length → negation ys) →
      (∀ ys, ys.length < xs.length → disjunction ys) → negation xs)
    (hconditions : ∀ xs, (∀ ys, ys.length ≤ xs.length → negation ys) →
      (∀ ys, ys.length < xs.length → conditions ys) → conditions xs)
    (hconjunction : ∀ xs, negation xs → (∀ ys, ys.length < xs.length → conditions ys) →
      conjunction xs)
    (halternatives : ∀ xs, (∀ ys, ys.length < xs.length → conjunction ys) →
      (∀ ys, ys.length < xs.length → alternatives ys) → alternatives xs)
    (hdisjunction : ∀ xs, conjunction xs → (∀ ys, ys.length < xs.length → alternatives ys) →
      disjunction xs)
    (xs : List α) : disjunction xs := by
  suffices hall : ∀ n (xs : List α), xs.length = n →
      negation xs ∧ conditions xs ∧ conjunction xs ∧ alternatives xs ∧ disjunction xs from
    (hall xs.length xs rfl).2.2.2.2
  intro n
  induction n using Nat.strong_induction_on with
  | _ n ih =>
      have hlength : ∀ xs : List α, xs.length = n → negation xs := by
        rintro xs rfl
        exact hnegation xs (fun ys hlt => (ih _ hlt ys rfl).1)
          fun ys hlt => (ih _ hlt ys rfl).2.2.2.2
      rintro xs rfl
      have hconditions' := hconditions xs
        (fun ys hle => hle.lt_or_eq.elim (fun hlt => (ih _ hlt ys rfl).1) (hlength ys))
        fun ys hlt => (ih _ hlt ys rfl).2.1
      have hconjunction' := hconjunction xs (hlength xs rfl) fun ys hlt => (ih _ hlt ys rfl).2.1
      have halternatives' := halternatives xs (fun ys hlt => (ih _ hlt ys rfl).2.2.1)
        fun ys hlt => (ih _ hlt ys rfl).2.2.2.1
      exact ⟨hlength xs rfl, hconditions', hconjunction', halternatives',
        hdisjunction xs hconjunction' fun ys hlt => (ih _ hlt ys rfl).2.2.2.1⟩

/-! ### Soundness -/

/-- What is found was a phrase of the language, with the tokens left behind it. -/
def FindsPhrase (nonterminal : Nonterminal) (tokens : List Token)
    (found : Option (Clause × List Token)) : Prop :=
  ∀ clause rest, found = some (clause, rest) →
    ∃ used, tokens = used ++ rest ∧ Derives nonterminal used

/-- The further members found were phrases of the language. -/
def FindsPhrases (nonterminal : Nonterminal) (tokens : List Token)
    (found : List Clause × List Token) : Prop :=
  ∃ used, tokens = used ++ found.2 ∧ Derives nonterminal used

/-- A term that is no group, with its tokens. -/
inductive IsPlainTerm : Clause → List Token → Prop
  | comparison {field op value} :
      IsPlainTerm (.comparison field op value) [.value field, .comparator op, .value value]
  | prefixed {op value} : IsPlainTerm (.prefixed op value) [.comparator op, .value value]
  | value {value} : IsPlainTerm (.value value) [.value value]

theorem IsPlainTerm.derives {clause : Clause} {tokens : List Token}
    (hplain : IsPlainTerm clause tokens) : Derives .term tokens := by
  cases hplain with
  | comparison => exact .comparison
  | prefixed => exact .prefixed
  | value => exact .value

/-- How the tokens begin that a negation can be read from. -/
theorem negation?_eq_some {tokens rest : List Token} {clause : Clause}
    (hfound : negation? tokens = some (clause, rest)) :
    (∃ after operand, tokens = .not :: after ∧ clause = .negation operand ∧
      negation? after = some (operand, rest)) ∨
    (∃ after inner, tokens = .opening :: after ∧ clause = .group inner ∧
      disjunction? after = some (inner, .closing :: rest)) ∨
    ∃ used, tokens = used ++ rest ∧ IsPlainTerm clause used := by
  unfold negation? at hfound
  rw [negation.eq_def] at hfound
  split at hfound
  next after =>
      obtain ⟨parsed, hparsed, ⟨⟩⟩ := Option.map_eq_some_iff.mp hfound
      obtain ⟨operand, hoperand, rfl⟩ := Option.map_eq_some_iff.mp hparsed
      exact .inl ⟨after, operand.clause, rfl, rfl, by rw [negation?, hoperand]; rfl⟩
  next after =>
      split at hfound
      next inner rest' hshorter hinner =>
          cases hfound
          exact .inr (.inl ⟨after, inner, rfl, rfl, by rw [disjunction?, hinner]; rfl⟩)
      next => cases hfound
  next field op value rest' =>
      cases hfound
      exact .inr (.inr ⟨[.value field, .comparator op, .value value], rfl, .comparison⟩)
  next op value rest' =>
      cases hfound
      exact .inr (.inr ⟨[.comparator op, .value value], rfl, .prefixed⟩)
  next value rest' _ =>
      cases hfound
      exact .inr (.inr ⟨[.value value], rfl, .value⟩)
  next => cases hfound

theorem negation?_sound {tokens : List Token}
    (hnegation : ∀ after, after.length < tokens.length →
      FindsPhrase .negation after (negation? after))
    (hdisjunction : ∀ after, after.length < tokens.length →
      FindsPhrase .disjunction after (disjunction? after)) :
    FindsPhrase .negation tokens (negation? tokens) := by
  intro clause rest hfound
  rcases negation?_eq_some hfound with ⟨after, operand, rfl, -, hoperand⟩ |
    ⟨after, inner, rfl, -, hinner⟩ | ⟨used, rfl, hused⟩
  · obtain ⟨used, rfl, hused⟩ := hnegation after (by simp) operand rest hoperand
    exact ⟨.not :: used, rfl, .negated hused⟩
  · obtain ⟨used, rfl, hused⟩ := hdisjunction after (by simp) inner _ hinner
    exact ⟨.opening :: used ++ [.closing], by simp, .affirmed (.group hused)⟩
  · exact ⟨used, rfl, .affirmed hused.derives⟩

theorem furtherConditions_sound {tokens : List Token}
    (hnegation : ∀ after, after.length ≤ tokens.length →
      FindsPhrase .negation after (negation? after))
    (hconditions : ∀ after, after.length < tokens.length →
      FindsPhrases .conditions after (furtherConditions after)) :
    FindsPhrases .conditions tokens (furtherConditions tokens) := by
  rw [furtherConditions_eq]
  have hle := length_afterAnd_le tokens
  cases hmember : negation? (afterAnd tokens) with
  | none => exact ⟨[], rfl, .noCondition⟩
  | some found =>
      obtain ⟨member, rest⟩ := found
      have hshorter := negation?_shorter hmember
      obtain ⟨used, hused, hderives⟩ := hnegation _ hle member rest hmember
      obtain ⟨others, hothers, hrest⟩ := hconditions rest (by omega)
      dsimp only [membersFrom]
      rcases eq_and_cons_or_afterAnd_eq tokens with hand | hand
      · refine ⟨.and :: used ++ others, ?_, .joined hderives hrest⟩
        rw [hand, hused, List.append_assoc, ← hothers]
        rfl
      · refine ⟨used ++ others, ?_, .adjacent hderives hrest⟩
        rw [← hand, hused, List.append_assoc, ← hothers]

theorem conjunction?_sound {tokens : List Token}
    (hnegation : FindsPhrase .negation tokens (negation? tokens))
    (hconditions : ∀ after, after.length < tokens.length →
      FindsPhrases .conditions after (furtherConditions after)) :
    FindsPhrase .conjunction tokens (conjunction? tokens) := by
  intro clause rest hfound
  rw [conjunction?_eq] at hfound
  obtain ⟨⟨first, middle⟩, hfirst, ⟨⟩⟩ := Option.map_eq_some_iff.mp hfound
  obtain ⟨used, hused, hderives⟩ := hnegation first middle hfirst
  obtain ⟨others, hothers, hrest⟩ := hconditions middle (negation?_shorter hfirst)
  exact ⟨used ++ others, by rw [hused, List.append_assoc, ← hothers], .conjunction hderives hrest⟩

theorem furtherAlternatives_sound {tokens : List Token}
    (hconjunction : ∀ after, after.length < tokens.length →
      FindsPhrase .conjunction after (conjunction? after))
    (halternatives : ∀ after, after.length < tokens.length →
      FindsPhrases .alternatives after (furtherAlternatives after)) :
    FindsPhrases .alternatives tokens (furtherAlternatives tokens) := by
  by_cases hor : tokens.head? = some .or
  · obtain ⟨after, rfl⟩ := List.head?_eq_some_iff.mp hor
    rw [furtherAlternatives_or]
    cases hmember : conjunction? after with
    | none => exact ⟨[], rfl, .noAlternative⟩
    | some found =>
        obtain ⟨member, rest⟩ := found
        have hshorter := conjunction?_shorter hmember
        obtain ⟨used, hused, hderives⟩ := hconjunction after (by simp) member rest hmember
        obtain ⟨others, hothers, hrest⟩ :=
          halternatives rest (by simp only [List.length_cons]; omega)
        have hafter : after = used ++ others ++ (furtherAlternatives rest).2 := by
          rw [hused, List.append_assoc, ← hothers]
        exact ⟨.or :: used ++ others, congrArg (Token.or :: ·) hafter, .alternative hderives hrest⟩
  · rw [furtherAlternatives_of_ne hor]
    exact ⟨[], rfl, .noAlternative⟩

/-- A disjunction that is found was one. -/
theorem disjunction?_sound (tokens : List Token) :
    FindsPhrase .disjunction tokens (disjunction? tokens) := by
  refine reader_induction (fun tokens => FindsPhrase .negation tokens (negation? tokens))
    (fun tokens => FindsPhrases .conditions tokens (furtherConditions tokens))
    (fun tokens => FindsPhrase .conjunction tokens (conjunction? tokens))
    (fun tokens => FindsPhrases .alternatives tokens (furtherAlternatives tokens))
    (fun tokens => FindsPhrase .disjunction tokens (disjunction? tokens))
    (fun _ => negation?_sound) (fun _ => furtherConditions_sound) (fun _ => conjunction?_sound)
    (fun _ => furtherAlternatives_sound) ?_ tokens
  intro tokens hconjunction halternatives clause rest hfound
  rw [disjunction?_eq] at hfound
  obtain ⟨⟨first, middle⟩, hfirst, ⟨⟩⟩ := Option.map_eq_some_iff.mp hfound
  obtain ⟨used, hused, hderives⟩ := hconjunction first middle hfirst
  obtain ⟨others, hothers, hrest⟩ := halternatives middle (conjunction?_shorter hfirst)
  exact ⟨used ++ others, by rw [hused, List.append_assoc, ← hothers], .disjunction hderives hrest⟩

/-! ### Completeness -/

/-- No negation can follow here, with or without a connective. -/
def EndsConjunction (tokens : List Token) : Prop :=
  ∀ token ∈ tokens.head?, token = .or ∨ token = .closing

/-- No conjunction can follow here. -/
def EndsDisjunction (tokens : List Token) : Prop :=
  ∀ token ∈ tokens.head?, token = .closing

/-- How a phrase is found before other tokens. A negation may take a comparison that follows it;
lists are found whole where they end, also without a comparison they begin with. -/
def IsFound : Nonterminal → List Token → Prop
  | .disjunction, tokens => ∀ more, EndsDisjunction more →
      ∃ clause, disjunction? (tokens ++ more) = some (clause, more)
  | .alternatives, tokens => ∀ more, EndsDisjunction more →
      (furtherAlternatives (tokens ++ more)).2 = more
  | .conjunction, tokens => ∀ more, EndsConjunction more →
      ∃ clause, conjunction? (tokens ++ more) = some (clause, more)
  | .conditions, tokens =>
      (∀ more, EndsConjunction more → (furtherConditions (tokens ++ more)).2 = more) ∧
      ∀ op value others, tokens = .comparator op :: .value value :: others →
        ∀ more, EndsConjunction more → (furtherConditions (others ++ more)).2 = more
  | .negation, tokens | .term, tokens => ∀ more, ∃ clause rest,
      negation? (tokens ++ more) = some (clause, rest) ∧
        (rest = more ∨ ∃ op value, more = .comparator op :: .value value :: rest)

theorem EndsDisjunction.endsConjunction {tokens : List Token} (hends : EndsDisjunction tokens) :
    EndsConjunction tokens :=
  fun token htoken => .inr (hends token htoken)

/-- Alternatives begin with a connective, so a conjunction ends before them. -/
theorem endsConjunction_of_alternatives {tokens more : List Token}
    (hderives : Derives .alternatives tokens) (hmore : EndsDisjunction more) :
    EndsConjunction (tokens ++ more) := by
  cases hderives with
  | noAlternative => exact hmore.endsConjunction
  | alternative => simp [EndsConjunction]

/-- A negation begins with a comparator only if it is a comparison without a field. -/
theorem negation_cases {tokens : List Token} (hderives : Derives .negation tokens) :
    (∃ token rest, tokens = token :: rest ∧
      (token = .not ∨ token = .opening ∨ ∃ value, token = .value value)) ∨
    ∃ op value, tokens = [.comparator op, .value value] := by
  cases hderives with
  | negated => exact .inl ⟨_, _, rfl, .inl rfl⟩
  | affirmed hterm =>
      cases hterm with
      | group => exact .inl ⟨_, _, rfl, .inr (.inl rfl)⟩
      | comparison => exact .inl ⟨_, _, rfl, .inr (.inr ⟨_, rfl⟩)⟩
      | prefixed => exact .inr ⟨_, _, rfl⟩
      | value => exact .inl ⟨_, _, rfl, .inr (.inr ⟨_, rfl⟩)⟩

theorem afterAnd_of_negation {tokens : List Token} (hderives : Derives .negation tokens)
    (more : List Token) : afterAnd (tokens ++ more) = tokens ++ more := by
  rcases negation_cases hderives with ⟨_, _, rfl, rfl | rfl | ⟨_, rfl⟩⟩ | ⟨_, _, rfl⟩ <;> rfl

/-- A comparison before the end of a conjunction belongs to the conjunction. -/
theorem exists_of_append_eq_comparison {others more rest : List Token} {op : Operator}
    {value : Literal} (hmore : EndsConjunction more)
    (heq : others ++ more = .comparator op :: .value value :: rest) :
    ∃ others', others = .comparator op :: .value value :: others' ∧ rest = others' ++ more := by
  match others with
  | [] =>
      obtain rfl : more = _ := heq
      exact absurd (hmore (.comparator op) rfl) (by simp)
  | [_] =>
      obtain ⟨-, rfl⟩ := List.cons.inj heq
      exact absurd (hmore (.value value) rfl) (by simp)
  | _ :: _ :: others' =>
      obtain ⟨rfl, htail⟩ := List.cons.inj heq
      obtain ⟨rfl, hrest⟩ := List.cons.inj htail
      exact ⟨others', rfl, hrest.symm⟩

/-- Whatever a negation takes, the conditions behind it are read to their end. -/
theorem negation_then_conditions {member others more : List Token}
    (hmember : IsFound .negation member) (hothers : IsFound .conditions others)
    (hmore : EndsConjunction more) :
    ∃ clause rest, negation? (member ++ (others ++ more)) = some (clause, rest) ∧
      (furtherConditions rest).2 = more := by
  obtain ⟨clause, rest, hread, hrest⟩ := hmember (others ++ more)
  refine ⟨clause, rest, hread, ?_⟩
  rcases hrest with rfl | ⟨op, value, heq⟩
  · exact hothers.1 more hmore
  · obtain ⟨others', rfl, rfl⟩ := exists_of_append_eq_comparison hmore heq
    exact hothers.2 op value others' rfl more hmore

theorem furtherConditions_of_member {tokens member others more : List Token}
    (htokens : afterAnd tokens = member ++ (others ++ more)) (hmember : IsFound .negation member)
    (hothers : IsFound .conditions others) (hmore : EndsConjunction more) :
    (furtherConditions tokens).2 = more := by
  obtain ⟨clause, rest, hread, hrest⟩ := negation_then_conditions hmember hothers hmore
  rw [furtherConditions_eq, htokens, hread]
  exact hrest

theorem furtherConditions_of_end {more : List Token} (hmore : EndsConjunction more) :
    furtherConditions more = ([], more) := by
  have hafter : afterAnd more = more := by
    cases more with
    | nil => rfl
    | cons token more => rcases hmore token rfl with rfl | rfl <;> rfl
  rw [furtherConditions_eq, hafter, negation?_eq_none fun token htoken => .inr (hmore token htoken)]
  rfl

theorem furtherAlternatives_of_end {more : List Token} (hmore : EndsDisjunction more) :
    furtherAlternatives more = ([], more) := by
  have hor : more.head? ≠ some .or := by
    intro hor
    cases hmore _ hor
  rw [furtherAlternatives_of_ne hor]

theorem negation?_of_value (value : Literal) (more : List Token) :
    ∃ clause rest, negation? (.value value :: more) = some (clause, rest) ∧
      (rest = more ∨ ∃ op value, more = .comparator op :: .value value :: rest) := by
  by_cases hcompared : ∃ op compared rest, more = .comparator op :: .value compared :: rest
  · obtain ⟨op, compared, rest, rfl⟩ := hcompared
    exact ⟨_, rest, negation?_comparison value compared op rest, .inr ⟨op, compared, rfl⟩⟩
  · have halone : ∀ op compared rest, more ≠ .comparator op :: .value compared :: rest :=
      fun op compared rest heq => hcompared ⟨op, compared, rest, heq⟩
    exact ⟨_, more, negation?_value halone, .inl rfl⟩

/-- Every phrase is found. -/
theorem isFound_of_derives {nonterminal : Nonterminal} {tokens : List Token}
    (hderives : Derives nonterminal tokens) : IsFound nonterminal tokens := by
  induction hderives with
  | disjunction _ hrest ihfirst ihrest =>
      intro more hmore
      obtain ⟨first, hfirst⟩ := ihfirst _ (endsConjunction_of_alternatives hrest hmore)
      rw [List.append_assoc, disjunction?_eq, hfirst]
      exact ⟨_, congrArg some (Prod.ext rfl (ihrest more hmore))⟩
  | noAlternative => exact fun more hmore => congrArg Prod.snd (furtherAlternatives_of_end hmore)
  | alternative _ hrest ihmember ihrest =>
      intro more hmore
      obtain ⟨member, hmember⟩ := ihmember _ (endsConjunction_of_alternatives hrest hmore)
      rw [List.cons_append, List.cons_append, List.append_assoc, furtherAlternatives_or, hmember]
      exact ihrest more hmore
  | conjunction _ _ ihfirst ihrest =>
      intro more hmore
      obtain ⟨first, rest, hfirst, hrest⟩ := negation_then_conditions ihfirst ihrest hmore
      rw [List.append_assoc, conjunction?_eq, hfirst]
      exact ⟨_, congrArg some (Prod.ext rfl hrest)⟩
  | noCondition =>
      exact ⟨fun more hmore => congrArg Prod.snd (furtherConditions_of_end hmore), nofun⟩
  | joined _ _ ihmember ihrest =>
      refine ⟨fun more hmore => ?_, nofun⟩
      exact furtherConditions_of_member (by simp [afterAnd]) ihmember ihrest hmore
  | @adjacent member rest hmember _ ihmember ihrest =>
      refine ⟨fun more hmore => ?_, fun op value others heq more hmore => ?_⟩
      · rw [List.append_assoc]
        exact furtherConditions_of_member (afterAnd_of_negation hmember _) ihmember ihrest hmore
      · -- the comparison is the whole first member
        rcases negation_cases hmember with ⟨_, _, rfl, hfirst⟩ | ⟨_, _, rfl⟩
        · obtain ⟨rfl, -⟩ := List.cons.inj heq
          simp at hfirst
        · obtain ⟨-, htail⟩ := List.cons.inj heq
          obtain ⟨-, rfl⟩ := List.cons.inj htail
          exact ihrest.1 more hmore
  | negated _ ih =>
      intro more
      obtain ⟨operand, rest, hread, hrest⟩ := ih more
      exact ⟨_, rest, by rw [List.cons_append, negation?_not, hread]; rfl, hrest⟩
  | affirmed _ ih => exact ih
  | group _ ih =>
      intro more
      obtain ⟨inner, hinner⟩ := ih (.closing :: more) (by simp [EndsDisjunction])
      refine ⟨.group inner, more, ?_, .inl rfl⟩
      rw [List.cons_append, List.cons_append, List.append_assoc, List.singleton_append,
        negation?_opening, hinner]
  | comparison => exact fun more => ⟨_, more, negation?_comparison _ _ _ more, .inl rfl⟩
  | prefixed => exact fun more => ⟨_, more, negation?_prefixed _ _ more, .inl rfl⟩
  | value => exact fun more => negation?_of_value _ more

/-- The tokens are a disjunction if and only if one is found that leaves nothing behind. -/
theorem disjunction?_eq_some_nil_iff {tokens : List Token} :
    (∃ clause, disjunction? tokens = some (clause, [])) ↔ Derives .disjunction tokens := by
  constructor
  · rintro ⟨clause, hfound⟩
    obtain ⟨used, hused, hderives⟩ := disjunction?_sound tokens clause [] hfound
    rw [hused, List.append_nil]
    exact hderives
  · intro hderives
    simpa using isFound_of_derives hderives [] (by simp [EndsDisjunction])

end Sentence

end FieldSearch.Query
