import FieldSearch.Proofs.Query.Kinds
import FieldSearch.Proofs.Query.Sentence
import FieldSearch.Query.Parse

/-! The grammar reads tokens. Rules are stated on characters, but each of them begins at a token and
ends behind one, and what it finds depends on the tokens alone: it is what the reader of sentences
finds, with the same tokens left. A rule that gives up and begins again at another alternative
therefore never cuts the text in another way. -/

namespace FieldSearch.Query

open Sentence

/-- The first token, if it is of a kind. -/
def take {α : Type} (kind : Token → Option α) : List Token → Option (α × List Token)
  | [] => none
  | token :: tokens => (kind token).map fun a => (a, tokens)

/-- What is found first, and what is found behind it. -/
def followedBy {α β : Type} (first : Option (α × List Token))
    (second : α → List Token → Option (β × List Token)) : Option (β × List Token) :=
  first.bind fun (a, rest) => second a rest

/-- What was found, with the tokens and the text left. -/
def Found.outcome {s : List Char} {α : Type} (found : Found s α) :
    α × List Token × List Char :=
  (found.value, split found.rest.chars)

/-- The gap behind what was found changes nothing. -/
theorem Found.split_next {s : List Char} {α : Type} (found : Found s α) :
    split found.next = split found.rest.chars :=
  split_skipGaps _

theorem Found.length_next_le {s : List Char} {α : Type} (found : Found (skipGaps s) α) :
    found.next.length ≤ s.length :=
  Nat.le_trans (Nat.le_of_lt found.length_next_lt) (length_skipGaps_le s)

theorem take_exactly_eq_some_iff {wanted : Token} {tokens after : List Token} :
    take wanted.exactly tokens = some ((), after) ↔ tokens = wanted :: after := by
  cases tokens with
  | nil => simp [take]
  | cons token tokens => by_cases htoken : token = wanted <;> simp [take, Token.exactly, htoken]

namespace Reading

variable {s : List Char} {α β : Type}

/-- The reading finds what is found on the tokens of its text, and leaves what is left of them. -/
def Agrees (reading : Reading s α) (found : Option (α × List Token)) : Prop :=
  reading.found.map Found.outcome = found.map fun (a, rest) => (a, rest, (split s).2)

theorem Agrees.none_iff {reading : Reading s α} {found : Option (α × List Token)}
    (hagrees : reading.Agrees found) : reading.found = none ↔ found = none := by
  unfold Agrees at hagrees
  cases hreading : reading.found <;> cases found <;> simp_all

/-- Where something is found, it is found on the tokens too. -/
theorem Agrees.eq_some {reading : Reading s α} {found : Option (α × List Token)}
    (hagrees : reading.Agrees found) {f : Found s α} (hf : reading.found = some f) :
    found = some (f.value, (split f.rest.chars).1) ∧ (split f.rest.chars).2 = (split s).2 := by
  unfold Agrees at hagrees
  rw [hf] at hagrees
  obtain ⟨⟨a, rest⟩, rfl, houtcome⟩ := Option.map_eq_some_iff.mp hagrees.symm
  obtain ⟨rfl, hsplit⟩ := Prod.mk.inj houtcome
  rw [← hsplit]
  exact ⟨rfl, rfl⟩

theorem Agrees.of_eq_some {reading : Reading s α} {f : Found s α} (hf : reading.found = some f)
    (hleft : (split f.rest.chars).2 = (split s).2) :
    reading.Agrees (some (f.value, (split f.rest.chars).1)) := by
  unfold Agrees
  rw [hf, ← hleft]
  rfl

theorem Agrees.of_eq_none {reading : Reading s α} (hnone : reading.found = none) :
    reading.Agrees none := by
  unfold Agrees
  rw [hnone]
  rfl

theorem Agrees.map {reading : Reading s α} {found : Option (α × List Token)}
    (hagrees : reading.Agrees found) (f : α → β) :
    (reading.map f).Agrees (found.map (Prod.map f id)) := by
  cases hreading : reading.found with
  | none =>
      obtain rfl := hagrees.none_iff.mp hreading
      exact .of_eq_none (by simp [Reading.map, hreading])
  | some g =>
      obtain ⟨rfl, hleft⟩ := hagrees.eq_some hreading
      exact .of_eq_some (f := g.map f) (by simp [Reading.map, hreading]) hleft

theorem Agrees.named {reading : Reading s α} {found : Option (α × List Token)}
    (hagrees : reading.Agrees found) (rule : Rule) : (reading.named rule).Agrees found := by
  unfold Agrees at hagrees ⊢
  rw [← hagrees]
  cases hreading : reading.found <;> simp [Reading.named, hreading, Found.outcome]

theorem Agrees.either {first second : Reading s α} {found found' : Option (α × List Token)}
    (hfirst : first.Agrees found) (hsecond : second.Agrees found') :
    (first.either second).Agrees (found.or found') := by
  unfold Reading.either
  cases hreading : first.found with
  | none =>
      obtain rfl := hfirst.none_iff.mp hreading
      exact hsecond
  | some f =>
      obtain ⟨rfl, hleft⟩ := hfirst.eq_some hreading
      exact .of_eq_some rfl hleft

/-- A second reading begins at the token behind the first one. -/
theorem Agrees.andThen {first : Reading s α} {found : Option (α × List Token)}
    {second : α → (t : List Char) → t.length < s.length → Reading t β}
    {next : α → List Token → Option (β × List Token)} (hfirst : first.Agrees found)
    (hsecond : ∀ a t (hshorter : t.length < s.length), skipGaps t = t →
      (second a t hshorter).Agrees (next a (split t).1)) :
    (first.andThen second).Agrees (followedBy found next) := by
  unfold Reading.andThen followedBy
  cases hreading : first.found with
  | none =>
      obtain rfl := hfirst.none_iff.mp hreading
      exact .of_eq_none rfl
  | some f =>
      obtain ⟨rfl, hleft⟩ := hfirst.eq_some hreading
      have hnext := hsecond f.value f.next f.length_next_lt (skipGaps_skipGaps _)
      unfold Agrees at hnext ⊢
      rw [Option.bind_some, ← hleft, ← f.split_next]
      dsimp only
      rw [← hnext, Option.map_map]
      rfl

/-- A lexeme that reads a kind of tokens takes a token of that kind. -/
theorem agrees_ofLexeme {lexeme : Lexeme α} {kind : Token → Option α} (hreads : lexeme.Reads kind)
    (hs : skipGaps s = s) : (Reading.ofLexeme lexeme s).Agrees (take kind (split s).1) := by
  cases htoken : Lexeme.token.read s with
  | none =>
      rw [split_of_read_eq_none (by rwa [hs])]
      have hat := Lexeme.at?_of_read_eq_none (hreads.read_eq_none htoken)
      exact .of_eq_none (by simp [Reading.ofLexeme, hat])
  | some found =>
      obtain ⟨t, r⟩ := found
      have hread := hreads.read_eq htoken
      have hsplit : split s = (t :: (split r).1, (split r).2) := split_of_read (by rwa [hs])
      rw [hsplit]
      dsimp only [take]
      cases hkind : kind t with
      | none =>
          rw [hkind] at hread
          have hat := Lexeme.at?_of_read_eq_none hread
          exact .of_eq_none (by simp [Reading.ofLexeme, hat])
      | some a =>
          rw [hkind] at hread
          have hfound : (Reading.ofLexeme lexeme s).found =
              some ⟨a, [], r, lexeme.shorter hread⟩ := by
            simp [Reading.ofLexeme, Lexeme.at?_of_read hread]
          exact .of_eq_some hfound (by rw [hsplit])

end Reading

/-! ### Terms -/

namespace Token

def literal? : Token → Option Literal
  | value literal => some literal
  | _ => none

end Token

namespace Sentence

/-! The alternatives of a term, each on its own. -/

def group? (tokens : List Token) : Option (Clause × List Token) :=
  followedBy (take (Token.exactly .opening) tokens) fun _ inside =>
    followedBy (disjunction? inside) fun inner behind =>
      (take (Token.exactly .closing) behind).map (Prod.map (fun _ => .group inner) id)

def comparison? (tokens : List Token) : Option (Clause × List Token) :=
  followedBy (take Token.literal? tokens) fun field behind =>
    followedBy (take Token.comparator? behind) fun op last =>
      (take Token.literal? last).map (Prod.map (.comparison field op) id)

def prefixed? (tokens : List Token) : Option (Clause × List Token) :=
  followedBy (take Token.comparator? tokens) fun op last =>
    (take Token.literal? last).map (Prod.map (.prefixed op) id)

def term? (tokens : List Token) : Option (Clause × List Token) :=
  (group? tokens).or <| (comparison? tokens).or <| (prefixed? tokens).or <|
    (take Token.literal? tokens).map (Prod.map .value id)

theorem take_literal?_eq_none {tokens : List Token}
    (halone : ∀ value more, tokens ≠ .value value :: more) :
    take Token.literal? tokens = none := by
  cases tokens with
  | nil => rfl
  | cons token tokens =>
      cases token with
      | value literal => exact absurd rfl (halone literal tokens)
      | comparator | and | or | not | opening | closing => rfl

theorem term?_opening (after : List Token) :
    term? (.opening :: after) = group? (.opening :: after) :=
  Option.or_none

theorem group?_opening (after : List Token) :
    group? (.opening :: after) =
      match disjunction? after with
      | some (inner, .closing :: rest) => some (.group inner, rest)
      | _ => none := by
  have hafter : group? (.opening :: after) = followedBy (disjunction? after) fun inner behind =>
      (take (Token.exactly .closing) behind).map (Prod.map (fun _ => .group inner) id) := rfl
  rw [hafter]
  cases disjunction? after with
  | none => rfl
  | some found =>
      obtain ⟨inner, behind⟩ := found
      cases behind with
      | nil => rfl
      | cons token behind => cases token <;> rfl

theorem term?_comparator (op : Operator) (rest : List Token) :
    term? (.comparator op :: rest) =
      (take Token.literal? rest).map (Prod.map (.prefixed op) id) :=
  Option.or_none

theorem term?_value {value : Literal} {rest : List Token}
    (halone : ∀ op compared more, rest ≠ .comparator op :: .value compared :: more) :
    term? (.value value :: rest) = some (.value value, rest) := by
  have hnone : comparison? (.value value :: rest) = none := by
    cases rest with
    | nil => rfl
    | cons token rest =>
        cases token with
        | comparator op =>
            have hlast := take_literal?_eq_none fun compared more heq =>
              halone op compared more (congrArg _ heq)
            have hrest : comparison? (.value value :: .comparator op :: rest) =
                (take Token.literal? rest).map (Prod.map (.comparison value op) id) := rfl
            rw [hrest, hlast]
            rfl
        | value | and | or | not | opening | closing => rfl
  have hrest : term? (.value value :: rest) =
      (comparison? (.value value :: rest)).or (some (.value value, rest)) := rfl
  rw [hrest, hnone]
  rfl

/-- A negation is read behind its connective, and a term where there is none. -/
theorem negation?_eq (tokens : List Token) :
    negation? tokens =
      match take (Token.exactly .not) tokens with
      | some (_, after) => (negation? after).map (Prod.map .negation id)
      | none => term? tokens := by
  match tokens with
  | [] => exact negation?_eq_none (by simp)
  | .and :: _ | .or :: _ | .closing :: _ => exact negation?_eq_none (by simp)
  | .not :: after => exact negation?_not after
  | .opening :: after =>
      rw [negation?_opening]
      exact ((term?_opening after).trans (group?_opening after)).symm
  | .comparator op :: rest =>
      refine Eq.trans ?_ (term?_comparator op rest).symm
      by_cases hvalue : ∃ value more, rest = .value value :: more
      · obtain ⟨value, more, rfl⟩ := hvalue
        exact negation?_prefixed op value more
      · have halone : ∀ value more, rest ≠ .value value :: more :=
          fun value more heq => hvalue ⟨value, more, heq⟩
        rw [negation?_comparator halone, take_literal?_eq_none halone]
        rfl
  | .value value :: rest =>
      by_cases hcompared : ∃ op compared more, rest = .comparator op :: .value compared :: more
      · obtain ⟨op, compared, more, rfl⟩ := hcompared
        exact negation?_comparison value compared op more
      · have halone : ∀ op compared more, rest ≠ .comparator op :: .value compared :: more :=
          fun op compared more heq => hcompared ⟨op, compared, more, heq⟩
        rw [negation?_value halone]
        exact (term?_value halone).symm

end Sentence

namespace Grammar

open Reading

variable {s : List Char}

theorem take_literal?_eq (tokens : List Token) :
    take Token.literal? tokens =
      ((take Token.quoted? tokens).map (Prod.map (fun found => .quoted found.1 found.2) id)).or
        ((take Token.word? tokens).map (Prod.map .word id)) := by
  cases tokens with
  | nil => rfl
  | cons token tokens =>
      cases token with
      | value literal => cases literal <;> rfl
      | comparator | and | or | not | opening | closing => rfl

theorem quoted_agrees (hs : skipGaps s = s) :
    (quoted s).Agrees ((take Token.quoted? (split s).1).map
      (Prod.map (fun found => .quoted found.1 found.2) id)) := by
  have hbare := (agrees_ofLexeme Lexeme.quoted_reads hs).map fun found =>
    Literal.quoted found.1 found.2
  refine .named ?_ _
  unfold Agrees at hbare ⊢
  rw [← hbare]
  cases hfound : (ofLexeme Lexeme.quoted s).found with
  | none => simp [Reading.map, hfound]
  | some found => simp [Reading.map, hfound, Found.outcome, Found.map]

theorem value_agrees (hs : skipGaps s = s) :
    (value s).Agrees (take Token.literal? (split s).1) := by
  rw [take_literal?_eq]
  exact (quoted_agrees hs).either (((agrees_ofLexeme Lexeme.word_reads hs).named _).map _)

theorem comparison_agrees (hs : skipGaps s = s) :
    (comparison s).Agrees (comparison? (split s).1) := by
  refine .named (.andThen (value_agrees hs) fun field t _ ht => ?_) _
  refine .andThen (.named (agrees_ofLexeme Lexeme.comparator_reads ht) _) fun op u _ hu => ?_
  exact (value_agrees hu).map _

theorem prefixComparison_agrees (hs : skipGaps s = s) :
    (prefixComparison s).Agrees (prefixed? (split s).1) := by
  refine .named (.andThen (.named (agrees_ofLexeme Lexeme.comparator_reads hs) _) ?_) _
  exact fun op t _ ht => (value_agrees ht).map _

/-! ### Rules

Rules that begin at a token agree with the reader of sentences, and so do lists, which skip the gap
before them on their own. -/

def NegationAgrees (s : List Char) : Prop :=
  skipGaps s = s → (negation s).Agrees (negation? (split s).1)

def ConjunctionAgrees (s : List Char) : Prop :=
  skipGaps s = s → (conjunction s).Agrees (conjunction? (split s).1)

def DisjunctionAgrees (s : List Char) : Prop :=
  skipGaps s = s → (disjunction s).Agrees (disjunction? (split s).1)

def Tail.Agrees (tail : Tail s) (found : List Clause × List Token) : Prop :=
  tail.members = found.1 ∧ split tail.rest = (found.2, (split s).2)

def ConditionsAgree (s : List Char) : Prop :=
  (conditions s).Agrees (furtherConditions (split s).1)

def AlternativesAgree (s : List Char) : Prop :=
  (alternatives s).Agrees (furtherAlternatives (split s).1)

theorem group_agrees (hs : skipGaps s = s)
    (hdisjunction : ∀ t, t.length < s.length → DisjunctionAgrees t) :
    (group s).Agrees (group? (split s).1) := by
  rw [group]
  refine .named (.andThen (agrees_ofLexeme Lexeme.opening_reads hs) fun _ t hshorter ht => ?_) _
  refine .andThen (hdisjunction t hshorter ht) fun inner u _ hu => ?_
  exact (agrees_ofLexeme Lexeme.closing_reads hu).map _

theorem term_agrees (hs : skipGaps s = s)
    (hdisjunction : ∀ t, t.length < s.length → DisjunctionAgrees t) :
    (term s).Agrees (term? (split s).1) := by
  rw [term]
  exact (group_agrees hs hdisjunction).either <| (comparison_agrees hs).either <|
    (prefixComparison_agrees hs).either <| (value_agrees hs).map _

theorem listOf_agrees {op : Connective} {first : Found s Clause} {attempts : List Attempt}
    {tail : Tail first.next} {found : List Clause × List Token} (htail : tail.Agrees found)
    (hleft : (split first.rest.chars).2 = (split s).2) :
    (listOf op first attempts tail).Agrees (some (.list op first.value found.1, found.2)) := by
  obtain ⟨hmembers, hrest⟩ := htail
  rw [first.split_next, hleft] at hrest
  simp [Reading.Agrees, listOf, Found.outcome, hmembers, hrest]

theorem Tail.nothing_agrees (attempts : List Attempt) :
    (Tail.nothing s attempts).Agrees ([], (split s).1) :=
  ⟨rfl, rfl⟩

theorem Tail.cons_agrees {t : List Char} {member : Found t Clause} (le : t.length ≤ s.length)
    {before : List Pair} {attempts : List Attempt} {tail : Tail member.rest.chars}
    {found : List Clause × List Token} (htail : tail.Agrees found)
    (hleft : (split member.rest.chars).2 = (split s).2) :
    (Tail.cons member le before attempts tail).Agrees (member.value :: found.1, found.2) := by
  obtain ⟨hmembers, hrest⟩ := htail
  rw [hleft] at hrest
  exact ⟨by rw [← hmembers]; rfl, hrest⟩

theorem negation_agrees (hnegation : ∀ t, t.length < s.length → NegationAgrees t)
    (hdisjunction : ∀ t, t.length < s.length → DisjunctionAgrees t) : NegationAgrees s := by
  intro hs
  have hterm := term_agrees hs hdisjunction
  have hop : (opNot s).Agrees (take (Token.exactly .not) (split s).1) :=
    (agrees_ofLexeme Lexeme.opNot_reads hs).named _
  rw [negation, negation?_eq]
  refine .named ?_ _
  cases hopNot : opNot s with
  | mk found attempts =>
      rw [hopNot] at hop
      cases found with
      | none =>
          rw [hop.none_iff.mp rfl]
          exact hterm
      | some op =>
          obtain ⟨htake, hleft⟩ := hop.eq_some rfl
          have hoperand := hnegation op.next op.length_next_lt (skipGaps_skipGaps _)
          rw [op.split_next] at hoperand
          rw [htake]
          dsimp only
          cases hread : negation op.next with
          | mk found more =>
              rw [hread] at hoperand
              cases found with
              | none =>
                  -- no term begins with the connective, so none is found in place of the operand
                  rw [hoperand.none_iff.mp rfl]
                  rw [take_exactly_eq_some_iff.mp htake] at hterm
                  exact hterm
              | some operand =>
                  obtain ⟨hfound, hrest⟩ := hoperand.eq_some rfl
                  rw [op.split_next, hleft] at hrest
                  rw [hfound]
                  simp [Reading.Agrees, Found.outcome, Rest.within, ← hrest]

theorem conjunction_agrees (hnegation : NegationAgrees s)
    (hconditions : ∀ t, t.length < s.length → ConditionsAgree t) : ConjunctionAgrees s := by
  intro hs
  have hfirst := hnegation hs
  rw [conjunction, conjunction?_eq]
  refine .named ?_ _
  cases hread : negation s with
  | mk found attempts =>
      rw [hread] at hfirst
      cases found with
      | none =>
          rw [hfirst.none_iff.mp rfl]
          exact .of_eq_none rfl
      | some first =>
          obtain ⟨hfound, hleft⟩ := hfirst.eq_some rfl
          have htail := hconditions first.next first.length_next_lt
          rw [ConditionsAgree, first.split_next] at htail
          rw [hfound]
          exact listOf_agrees htail hleft

/-- A connective that is found is the first token. -/
theorem split_of_connective {wanted : Token} {reading : Reading (skipGaps s) Unit}
    {op : Found (skipGaps s) Unit}
    (hagrees : reading.Agrees (take wanted.exactly (split (skipGaps s)).1))
    (hop : reading.found = some op) :
    split s = (wanted :: (split op.next).1, (split op.next).2) := by
  obtain ⟨htake, hleft⟩ := hagrees.eq_some hop
  rw [split_skipGaps] at htake hleft
  rw [op.split_next, hleft]
  exact Prod.ext (take_exactly_eq_some_iff.mp htake) rfl

/-- A connective that is not found is not the first token. -/
theorem split_ne_of_no_connective {wanted : Token} {reading : Reading (skipGaps s) Unit}
    (hagrees : reading.Agrees (take wanted.exactly (split (skipGaps s)).1))
    (hnone : reading.found = none) (after : List Token) : (split s).1 ≠ wanted :: after := by
  intro hsplit
  rw [split_skipGaps, take_exactly_eq_some_iff.mpr hsplit] at hagrees
  cases hagrees.none_iff.mp hnone

/-- A tail that begins with what is read here, or one that leaves everything before it too. -/
def Tail.startingWith {t : List Char} (le : t.length ≤ s.length) (before : List Pair)
    (attempts : List Attempt) (following : (u : List Char) → Tail u) : Reading t Clause → Tail s
  | ⟨none, more⟩ => .nothing s (attempts ++ more)
  | ⟨some member, more⟩ =>
    .cons member le before (attempts ++ more) (following member.rest.chars)

theorem Tail.startingWith_agrees {t : List Char} {le : t.length ≤ s.length} {before : List Pair}
    {attempts : List Attempt} {following : (u : List Char) → Tail u} {member : Reading t Clause}
    {found : Option (Clause × List Token)} {further : List Token → List Clause × List Token}
    (hmember : member.Agrees found) (hleft : (split t).2 = (split s).2)
    (hfollowing : ∀ u : List Char, u.length < t.length →
      (following u).Agrees (further (split u).1)) :
    (Tail.startingWith le before attempts following member).Agrees
      (membersFrom (split s).1 further found) := by
  obtain ⟨read, more⟩ := member
  cases read with
  | none =>
      rw [hmember.none_iff.mp rfl]
      exact Tail.nothing_agrees _
  | some first =>
      obtain ⟨hfound, hrest⟩ := hmember.eq_some rfl
      rw [hfound]
      exact Tail.cons_agrees le (hfollowing _ first.rest.shorter) (hrest.trans hleft)

theorem conditions_eq_of_none (hop : (opAnd (skipGaps s)).found = none) :
    conditions s = Tail.startingWith (length_skipGaps_le s) [] (opAnd (skipGaps s)).attempts
      conditions (negation (skipGaps s)) := by
  rw [conditions]
  cases hread : opAnd (skipGaps s) with
  | mk found attempts =>
      rw [hread] at hop
      obtain rfl : found = none := hop
      dsimp only
      rcases negation (skipGaps s) with ⟨_ | member, more⟩ <;> rfl

theorem conditions_eq_of_some {op : Found (skipGaps s) Unit}
    (hop : (opAnd (skipGaps s)).found = some op) :
    conditions s = Tail.startingWith op.length_next_le op.pairs (opAnd (skipGaps s)).attempts
      conditions (negation op.next) := by
  rw [conditions]
  cases hread : opAnd (skipGaps s) with
  | mk found attempts =>
      rw [hread] at hop
      obtain rfl : found = some op := hop
      dsimp only
      rcases negation op.next with ⟨_ | member, more⟩ <;> rfl

theorem alternatives_eq_of_none (hop : (opOr (skipGaps s)).found = none) :
    alternatives s = .nothing s (opOr (skipGaps s)).attempts := by
  rw [alternatives]
  cases hread : opOr (skipGaps s) with
  | mk found attempts =>
      rw [hread] at hop
      obtain rfl : found = none := hop
      rfl

theorem alternatives_eq_of_some {op : Found (skipGaps s) Unit}
    (hop : (opOr (skipGaps s)).found = some op) :
    alternatives s = Tail.startingWith op.length_next_le op.pairs (opOr (skipGaps s)).attempts
      alternatives (conjunction op.next) := by
  rw [alternatives]
  cases hread : opOr (skipGaps s) with
  | mk found attempts =>
      rw [hread] at hop
      obtain rfl : found = some op := hop
      dsimp only
      rcases conjunction op.next with ⟨_ | member, more⟩ <;> rfl

theorem conditions_agree (hnegation : ∀ t, t.length ≤ s.length → NegationAgrees t)
    (hconditions : ∀ t, t.length < s.length → ConditionsAgree t) : ConditionsAgree s := by
  have hskip := skipGaps_skipGaps s
  have hle := length_skipGaps_le s
  have hop : (opAnd (skipGaps s)).Agrees (take (Token.exactly .and) (split (skipGaps s)).1) :=
    (agrees_ofLexeme Lexeme.opAnd_reads hskip).named _
  rw [ConditionsAgree, furtherConditions_eq]
  cases hfound : (opAnd (skipGaps s)).found with
  | none =>
      have hafter : afterAnd (split s).1 = (split s).1 :=
        (eq_and_cons_or_afterAnd_eq _).resolve_left (split_ne_of_no_connective hop hfound _)
      have hmember := hnegation (skipGaps s) hle hskip
      rw [split_skipGaps] at hmember
      rw [conditions_eq_of_none hfound, hafter]
      exact Tail.startingWith_agrees hmember (by rw [split_skipGaps]) fun u hu =>
        hconditions u (Nat.lt_of_lt_of_le hu hle)
  | some op =>
      have hsplit := split_of_connective hop hfound
      have hshorter := Nat.lt_of_lt_of_le op.length_next_lt hle
      have hmember := hnegation op.next op.length_next_le (skipGaps_skipGaps _)
      have hafter : afterAnd (split s).1 = (split op.next).1 := by
        rw [hsplit]
        rfl
      rw [conditions_eq_of_some hfound, hafter]
      exact Tail.startingWith_agrees hmember (by rw [hsplit]) fun u hu =>
        hconditions u (Nat.lt_trans hu hshorter)

theorem alternatives_agree (hconjunction : ∀ t, t.length < s.length → ConjunctionAgrees t)
    (halternatives : ∀ t, t.length < s.length → AlternativesAgree t) : AlternativesAgree s := by
  have hskip := skipGaps_skipGaps s
  have hop : (opOr (skipGaps s)).Agrees (take (Token.exactly .or) (split (skipGaps s)).1) :=
    (agrees_ofLexeme Lexeme.opOr_reads hskip).named _
  unfold AlternativesAgree
  cases hfound : (opOr (skipGaps s)).found with
  | none =>
      have hor : (split s).1.head? ≠ some .or := by
        intro hor
        obtain ⟨after, hafter⟩ := List.head?_eq_some_iff.mp hor
        exact split_ne_of_no_connective hop hfound after hafter
      rw [alternatives_eq_of_none hfound, furtherAlternatives_of_ne hor]
      exact Tail.nothing_agrees _
  | some op =>
      have hsplit := split_of_connective hop hfound
      have hshorter := Nat.lt_of_lt_of_le op.length_next_lt (length_skipGaps_le s)
      have hmember := hconjunction op.next hshorter (skipGaps_skipGaps _)
      have hfurther : furtherAlternatives (split s).1 =
          membersFrom (split s).1 furtherAlternatives (conjunction? (split op.next).1) := by
        rw [hsplit]
        exact furtherAlternatives_or _
      rw [alternatives_eq_of_some hfound, hfurther]
      exact Tail.startingWith_agrees hmember (by rw [hsplit]) fun u hu =>
        halternatives u (Nat.lt_trans hu hshorter)

/-- The grammar finds the disjunction that is found on the tokens. -/
theorem disjunction_agrees (s : List Char) : DisjunctionAgrees s := by
  refine reader_induction NegationAgrees ConditionsAgree ConjunctionAgrees AlternativesAgree
    DisjunctionAgrees (fun _ => negation_agrees) (fun _ => conditions_agree)
    (fun _ => conjunction_agrees) (fun _ => alternatives_agree) ?_ s
  intro s hconjunction halternatives hs
  have hfirst := hconjunction hs
  rw [disjunction, disjunction?_eq]
  refine .named ?_ _
  cases hread : conjunction s with
  | mk found attempts =>
      rw [hread] at hfirst
      cases found with
      | none =>
          rw [hfirst.none_iff.mp rfl]
          exact .of_eq_none rfl
      | some first =>
          obtain ⟨hfound, hleft⟩ := hfirst.eq_some rfl
          have htail := halternatives first.next first.length_next_lt
          rw [AlternativesAgree, first.split_next] at htail
          rw [hfound]
          exact listOf_agrees htail hleft

end Grammar

end FieldSearch.Query
