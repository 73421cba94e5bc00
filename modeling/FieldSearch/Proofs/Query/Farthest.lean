import FieldSearch.Proofs.Query.Front
import FieldSearch.Proofs.Query.Place

/-! Where the grammar fails. Every rule is tried at a place between two tokens, and what stands in
front of that place can go on to be a query, since the rules that are being read there can all be
completed. The farthest failure is at one of these places. -/

namespace FieldSearch.Query

open Sentence

/-! ### Places of attempts -/

mutual

/-- The places at which something was tried. -/
def Attempt.places : Attempt → List Nat
  | .tried _ after inner _ => after :: Attempt.allPlaces inner

def Attempt.allPlaces : List Attempt → List Nat
  | [] => []
  | attempt :: attempts => attempt.places ++ Attempt.allPlaces attempts

end

theorem Attempt.allPlaces_append (attempts others : List Attempt) :
    allPlaces (attempts ++ others) = allPlaces attempts ++ allPlaces others := by
  induction attempts with
  | nil => rfl
  | cons attempt attempts ih => simp [allPlaces, ih]

theorem Failure.after_blame (failure : Failure) (rule : Rule) (after before : Nat) :
    (failure.blame rule after before).after = failure.after ∨
      (failure.blame rule after before).after = after := by
  unfold blame
  split_ifs <;> simp

mutual

theorem Attempt.after_record (attempt : Attempt) (failure : Failure) :
    (attempt.record failure).after = failure.after ∨
      (attempt.record failure).after ∈ attempt.places :=
  match attempt with
  | .tried rule after inner failed => by
      have hinner := Attempt.after_recordAll inner failure
      have hblame := (Attempt.recordAll inner failure).after_blame rule after
        (failure.countAt after)
      simp only [Attempt.record, Attempt.places, List.mem_cons]
      split <;> grind

theorem Attempt.after_recordAll (attempts : List Attempt) (failure : Failure) :
    (Attempt.recordAll attempts failure).after = failure.after ∨
      (Attempt.recordAll attempts failure).after ∈ Attempt.allPlaces attempts :=
  match attempts with
  | [] => .inl rfl
  | attempt :: attempts => by
      have hfirst := attempt.after_record failure
      have hrest := Attempt.after_recordAll attempts (attempt.record failure)
      simp only [Attempt.recordAll, Attempt.allPlaces, List.mem_append]
      grind

end

/-! ### Readings -/

/-- What stands in front of this place of the text can go on to be a query. -/
def CanGoOn (text : List Char) (after : Nat) : Prop :=
  ∃ before rest, text = before ++ rest ∧ rest.length = after ∧ ∃ more, IsQuery (before ++ more)

theorem Passed.canGoOn {text s : List Char} {used : List Token} (hpassed : Passed text used s)
    (hfront : IsFront used) : CanGoOn text s.length := by
  obtain ⟨before, htext, hmore⟩ := hpassed.exists_isQuery hfront
  exact ⟨before, s, htext, rfl, hmore⟩

/-- Everything was tried at such places. -/
def AllCanGoOn (text : List Char) (attempts : List Attempt) : Prop :=
  ∀ after ∈ Attempt.allPlaces attempts, CanGoOn text after

theorem AllCanGoOn.append {text : List Char} {attempts others : List Attempt}
    (hattempts : AllCanGoOn text attempts) (hothers : AllCanGoOn text others) :
    AllCanGoOn text (attempts ++ others) := by
  intro after hafter
  rw [Attempt.allPlaces_append, List.mem_append] at hafter
  exact hafter.elim (hattempts after) (hothers after)

theorem allCanGoOn_nil (text : List Char) : AllCanGoOn text [] :=
  nofun

theorem allCanGoOn_tried {text : List Char} {rule : Rule} {after : Nat} {inner : List Attempt}
    {failed : Bool} (hafter : CanGoOn text after) (hinner : AllCanGoOn text inner) :
    AllCanGoOn text [.tried rule after inner failed] := by
  intro place hplace
  simp only [Attempt.allPlaces, Attempt.places, List.append_nil, List.mem_cons] at hplace
  rcases hplace with rfl | hplace
  · exact hafter
  · exact hinner place hplace

/-- The tokens end in a phrase of the nonterminal. -/
def EndsIn (nonterminal : Nonterminal) (used : List Token) : List Token → Prop :=
  fun reached => ∃ phrase, Derives nonterminal phrase ∧ reached = used ++ phrase

namespace Reading

variable {s text : List Char} {α β : Type} {wanted : List Token → Prop}

/-- If the reading finds something, the tokens up to where it ends are as wanted; and wherever it
tries something, the text in front can go on to be a query. -/
structure Advances (text : List Char) (wanted : List Token → Prop) (reading : Reading s α) :
    Prop where
  passed : ∀ f, reading.found = some f → ∃ used, wanted used ∧ Passed text used f.rest.chars
  tried : AllCanGoOn text reading.attempts

theorem Advances.map {reading : Reading s α} (hadvances : reading.Advances text wanted)
    (f : α → β) : (reading.map f).Advances text wanted where
  passed found hfound := by
    obtain ⟨g, hg, rfl⟩ := Option.map_eq_some_iff.mp hfound
    exact hadvances.passed g hg
  tried := hadvances.tried

theorem Advances.mono {reading : Reading s α} {wanted' : List Token → Prop}
    (hadvances : reading.Advances text wanted) (himp : ∀ used, wanted used → wanted' used) :
    reading.Advances text wanted' where
  passed found hfound :=
    (hadvances.passed found hfound).imp fun used hused => ⟨himp used hused.1, hused.2⟩
  tried := hadvances.tried

/-- The rule itself is tried where the reading begins. -/
theorem Advances.named {reading : Reading s α} (hadvances : reading.Advances text wanted)
    (hs : CanGoOn text s.length) (rule : Rule) : (reading.named rule).Advances text wanted where
  passed found hfound := by
    obtain ⟨g, hg, rfl⟩ := Option.map_eq_some_iff.mp hfound
    exact hadvances.passed g hg
  tried := allCanGoOn_tried hs hadvances.tried

theorem Advances.either {first second : Reading s α} (hfirst : first.Advances text wanted)
    (hsecond : second.Advances text wanted) : (first.either second).Advances text wanted := by
  unfold Reading.either
  cases hfound : first.found with
  | some f => exact ⟨fun found hsome => hfirst.passed found (hfound.trans hsome), hfirst.tried⟩
  | none => exact ⟨hsecond.passed, hfirst.tried.append hsecond.tried⟩

/-- The second reading begins behind the first one and the gap that follows it. -/
theorem Advances.andThen {first : Reading s α}
    {second : α → (t : List Char) → t.length < s.length → Reading t β}
    {middle : List Token → Prop} (hfirst : first.Advances text middle)
    (hsecond : ∀ a t (hshorter : t.length < s.length) used, middle used → Passed text used t →
      (second a t hshorter).Advances text wanted) :
    (first.andThen second).Advances text wanted := by
  unfold Reading.andThen
  cases hfound : first.found with
  | none => exact ⟨nofun, hfirst.tried⟩
  | some f =>
      obtain ⟨used, hused, hpassed⟩ := hfirst.passed f hfound
      have hnext := hsecond f.value f.next f.length_next_lt used hused hpassed.gap
      refine ⟨fun found hsome => ?_, hfirst.tried.append hnext.tried⟩
      obtain ⟨g, hg, rfl⟩ := Option.map_eq_some_iff.mp hsome
      exact hnext.passed g hg

/-- A lexeme passes the token that it reads. -/
theorem advances_ofLexeme {lexeme : Lexeme α} {kind : Token → Option α}
    (hreads : lexeme.Reads kind) {used : List Token} (hpassed : Passed text used s) :
    (Reading.ofLexeme lexeme s).Advances text
      fun reached => ∃ token a, kind token = some a ∧ reached = used ++ [token] where
  passed found hfound := by
    obtain ⟨⟨a, rest⟩, hat, rfl⟩ := Option.map_eq_some_iff.mp hfound
    have hread : lexeme.read s = some (a, rest.chars) := by
      unfold Lexeme.at? at hat
      split at hat
      · cases hat
      next hsome =>
        cases hat
        exact hsome
    obtain ⟨token, htoken, hkind⟩ := (hreads s a rest.chars).mp hread
    exact ⟨used ++ [token], ⟨token, a, hkind, rfl⟩, hpassed.token htoken⟩
  tried := allCanGoOn_nil text

end Reading

namespace Grammar

open Reading

variable {s text : List Char} {used : List Token}

/-! ### Terms -/

theorem exactly_advances {lexeme : Lexeme Unit} {token : Token}
    (hreads : lexeme.Reads token.exactly) (hpassed : Passed text used s) :
    (ofLexeme lexeme s).Advances text (· = used ++ [token]) := by
  refine (advances_ofLexeme hreads hpassed).mono ?_
  rintro _ ⟨found, ⟨⟩, hfound, rfl⟩
  rw [Token.exactly_eq_some_iff.mp hfound]

theorem value_advances (hpassed : Passed text used s) (hfront : IsFront used) :
    (value s).Advances text fun reached => ∃ literal, reached = used ++ [.value literal] := by
  have hs := hpassed.canGoOn hfront
  have hquoted := advances_ofLexeme Lexeme.quoted_reads hpassed
  have hword := advances_ofLexeme Lexeme.word_reads hpassed
  refine .either (.named ⟨fun f hf => ?_, allCanGoOn_nil text⟩ hs _)
    (((hword.named hs _).map _).mono ?_)
  · obtain ⟨bare, hbare, rfl⟩ := Option.map_eq_some_iff.mp hf
    obtain ⟨_, ⟨token, inside, hkind, rfl⟩, hrest⟩ := hquoted.passed bare hbare
    cases token with
    | value literal => exact ⟨_, ⟨literal, rfl⟩, hrest⟩
    | comparator | and | or | not | opening | closing => cases hkind
  · rintro _ ⟨token, chars, hkind, rfl⟩
    cases token with
    | value literal => exact ⟨literal, rfl⟩
    | comparator | and | or | not | opening | closing => cases hkind

theorem comparator_advances (hpassed : Passed text used s) (hfront : IsFront used) :
    (comparator s).Advances text fun reached => ∃ op, reached = used ++ [.comparator op] := by
  have hread := advances_ofLexeme Lexeme.comparator_reads hpassed
  refine (hread.named (hpassed.canGoOn hfront) _).mono ?_
  rintro _ ⟨token, op, hkind, rfl⟩
  cases token with
  | comparator op => exact ⟨op, rfl⟩
  | value | and | or | not | opening | closing => cases hkind

theorem comparison_advances (hpassed : Passed text used s) (hawaits : Awaits .term used) :
    (comparison s).Advances text (EndsIn .term used) := by
  have hfront := hawaits.isFront
  refine .named (.andThen (value_advances hpassed hfront) ?_) (hpassed.canGoOn hfront) _
  rintro _ t _ _ ⟨field, rfl⟩ ht
  refine .andThen (comparator_advances ht (hawaits.isFront_append .value)) ?_
  rintro _ u _ _ ⟨op, rfl⟩ hu
  rw [List.append_assoc] at hu
  have hbegun := hawaits.isFront_of_word [.value field, .comparator op] .comparison
  refine ((value_advances hu hbegun).map _).mono ?_
  rintro _ ⟨value, rfl⟩
  exact ⟨[.value field, .comparator op, .value value], .comparison, by simp⟩

theorem prefixComparison_advances (hpassed : Passed text used s) (hawaits : Awaits .term used) :
    (prefixComparison s).Advances text (EndsIn .term used) := by
  have hfront := hawaits.isFront
  refine .named (.andThen (comparator_advances hpassed hfront) ?_) (hpassed.canGoOn hfront) _
  rintro _ t _ _ ⟨op, rfl⟩ ht
  have hbegun := hawaits.isFront_of_word [.comparator op] .prefixed
  refine ((value_advances ht hbegun).map _).mono ?_
  rintro _ ⟨value, rfl⟩
  exact ⟨[.comparator op, .value value], .prefixed, by simp⟩

/-! ### Rules

What a rule passes is a phrase of its nonterminal, wherever such a phrase may stand. -/

def NegationAdvances (text s : List Char) : Prop :=
  ∀ used, Awaits .negation used → Passed text used s →
    (negation s).Advances text (EndsIn .negation used)

def ConjunctionAdvances (text s : List Char) : Prop :=
  ∀ used, Awaits .conjunction used → Passed text used s →
    (conjunction s).Advances text (EndsIn .conjunction used)

def DisjunctionAdvances (text s : List Char) : Prop :=
  ∀ used, Awaits .disjunction used → Passed text used s →
    (disjunction s).Advances text (EndsIn .disjunction used)

structure Tail.Advances (text : List Char) (wanted : List Token → Prop) (tail : Tail s) :
    Prop where
  passed : ∃ used, wanted used ∧ Passed text used tail.rest
  tried : AllCanGoOn text tail.attempts

def ConditionsAdvance (text s : List Char) : Prop :=
  ∀ used, Awaits .conditions used → Passed text used s →
    (conditions s).Advances text (EndsIn .conditions used)

def AlternativesAdvance (text s : List Char) : Prop :=
  ∀ used, Awaits .alternatives used → Passed text used s →
    (alternatives s).Advances text (EndsIn .alternatives used)

theorem group_advances (hpassed : Passed text used s) (hawaits : Awaits .term used)
    (hdisjunction : ∀ t, t.length < s.length → DisjunctionAdvances text t) :
    (group s).Advances text (EndsIn .term used) := by
  rw [group]
  refine .named (.andThen (exactly_advances Lexeme.opening_reads hpassed) ?_)
    (hpassed.canGoOn hawaits.isFront) _
  rintro _ t hshorter _ rfl ht
  refine .andThen (hdisjunction t hshorter _ hawaits.inner ht) ?_
  rintro _ u _ _ ⟨inner, hinner, rfl⟩ hu
  refine ((exactly_advances Lexeme.closing_reads hu).map _).mono ?_
  rintro _ rfl
  exact ⟨.opening :: inner ++ [.closing], .group hinner, by simp⟩

theorem term_advances (hpassed : Passed text used s) (hawaits : Awaits .term used)
    (hdisjunction : ∀ t, t.length < s.length → DisjunctionAdvances text t) :
    (term s).Advances text (EndsIn .term used) := by
  have hvalue := (value_advances hpassed hawaits.isFront).map Clause.value
  rw [term]
  refine .either (group_advances hpassed hawaits hdisjunction) <|
    .either (comparison_advances hpassed hawaits) <|
    .either (prefixComparison_advances hpassed hawaits) (hvalue.mono ?_)
  rintro _ ⟨literal, rfl⟩
  exact ⟨[.value literal], .value, rfl⟩

theorem negation_advances (hnegation : ∀ t, t.length < s.length → NegationAdvances text t)
    (hdisjunction : ∀ t, t.length < s.length → DisjunctionAdvances text t) :
    NegationAdvances text s := by
  intro used hawaits hpassed
  have hs := hpassed.canGoOn hawaits.isFront
  have hop := (exactly_advances Lexeme.opNot_reads hpassed).named hs .opNot
  have hterm : (term s).Advances text (EndsIn .negation used) :=
    (term_advances hpassed hawaits.term hdisjunction).mono fun _ => .imp fun _ =>
      .imp Derives.affirmed id
  rw [negation]
  refine .named ?_ hs _
  cases hopNot : opNot s with
  | mk found attempts =>
      change Advances text _ (opNot s) at hop
      rw [hopNot] at hop
      cases found with
      | none => exact ⟨hterm.passed, hop.tried.append hterm.tried⟩
      | some op =>
          obtain ⟨_, rfl, hbehind⟩ := hop.passed op rfl
          have hoperand := hnegation op.next op.length_next_lt _ hawaits.operand hbehind.gap
          dsimp only
          cases hread : negation op.next with
          | mk found more =>
              rw [hread] at hoperand
              have htried := hop.tried.append hoperand.tried
              cases found with
              | none => exact ⟨hterm.passed, htried.append hterm.tried⟩
              | some operand =>
                  obtain ⟨_, ⟨phrase, hphrase, rfl⟩, hrest⟩ := hoperand.passed operand rfl
                  refine ⟨fun found hfound => ?_, htried⟩
                  cases hfound
                  exact ⟨_, ⟨.not :: phrase, .negated hphrase, by simp⟩, hrest⟩

/-! ### Lists -/

/-- A list whose first member is what is read here, if anything is. -/
def listFrom (op : Connective) (following : (t : List Char) → Tail t) :
    Reading s Clause → Reading s Clause
  | ⟨none, attempts⟩ => ⟨none, attempts⟩
  | ⟨some first, attempts⟩ => listOf op first attempts (following first.next)

theorem conjunction_eq (s : List Char) :
    conjunction s = (listFrom .and conditions (negation s)).named .conjunction := by
  rw [conjunction]
  rcases negation s with ⟨_ | first, attempts⟩ <;> rfl

theorem disjunction_eq (s : List Char) :
    disjunction s = (listFrom .or alternatives (conjunction s)).named .disjunction := by
  rw [disjunction]
  rcases conjunction s with ⟨_ | first, attempts⟩ <;> rfl

/-- The first member is passed, and the further ones behind it. -/
theorem listFrom_advances {op : Connective} {following : (t : List Char) → Tail t}
    {member : Reading s Clause} {list first further : Nonterminal}
    (hmember : member.Advances text (EndsIn first used))
    (hfurther : ∀ (t : List Char) phrase, t.length < s.length → Derives first phrase →
      Passed text (used ++ phrase) t →
      (following t).Advances text (EndsIn further (used ++ phrase)))
    (hlist : ∀ phrase rest, Derives first phrase → Derives further rest →
      Derives list (phrase ++ rest)) :
    (listFrom op following member).Advances text (EndsIn list used) := by
  obtain ⟨read, attempts⟩ := member
  cases read with
  | none => exact ⟨nofun, hmember.tried⟩
  | some found =>
      obtain ⟨_, ⟨phrase, hphrase, rfl⟩, hbehind⟩ := hmember.passed found rfl
      have htail := hfurther found.next phrase found.length_next_lt hphrase hbehind.gap
      refine ⟨fun whole hwhole => ?_, hmember.tried.append htail.tried⟩
      cases hwhole
      obtain ⟨_, ⟨rest, hrest, rfl⟩, hend⟩ := htail.passed
      exact ⟨_, ⟨phrase ++ rest, hlist phrase rest hphrase hrest, List.append_assoc _ _ _⟩, hend⟩

theorem conjunction_advances (hnegation : NegationAdvances text s)
    (hconditions : ∀ t, t.length < s.length → ConditionsAdvance text t) :
    ConjunctionAdvances text s := by
  intro used hawaits hpassed
  have hfirst := hnegation used hawaits.firstNegation hpassed
  rw [conjunction_eq]
  refine .named (listFrom_advances hfirst ?_ fun _ _ => .conjunction)
    (hpassed.canGoOn hawaits.isFront) _
  exact fun t _ hshorter hphrase => hconditions t hshorter _ (hawaits.conditions hphrase)

theorem disjunction_advances (hconjunction : ConjunctionAdvances text s)
    (halternatives : ∀ t, t.length < s.length → AlternativesAdvance text t) :
    DisjunctionAdvances text s := by
  intro used hawaits hpassed
  have hfirst := hconjunction used hawaits.firstConjunction hpassed
  rw [disjunction_eq]
  refine .named (listFrom_advances hfirst ?_ fun _ _ => .disjunction)
    (hpassed.canGoOn hawaits.isFront) _
  exact fun t _ hshorter hphrase => halternatives t hshorter _ (hawaits.alternatives hphrase)

theorem Tail.nothing_advances {attempts : List Attempt} {further : Nonterminal}
    (hnone : Derives further []) (hpassed : Passed text used s)
    (hattempts : AllCanGoOn text attempts) :
    (Tail.nothing s attempts).Advances text (EndsIn further used) where
  passed := ⟨used, ⟨[], hnone, (List.append_nil used).symm⟩, hpassed⟩
  tried := hattempts

/-- One more member is passed behind a connective, or behind none, and the further ones behind it.
If there is none, nothing is passed. -/
theorem Tail.startingWith_advances {t : List Char} {le : t.length ≤ s.length} {before : List Pair}
    {attempts : List Attempt} {following : (u : List Char) → Tail u} {read : Reading t Clause}
    {member further : Nonterminal} (connective : List Token) (hpassed : Passed text used s)
    (hattempts : AllCanGoOn text attempts)
    (hmember : read.Advances text (EndsIn member (used ++ connective)))
    (hfollowing : ∀ (u : List Char) phrase, u.length < t.length → Derives member phrase →
      Passed text (used ++ connective ++ phrase) u →
      (following u).Advances text (EndsIn further (used ++ connective ++ phrase)))
    (hnone : Derives further []) (hfurther : ∀ phrase rest, Derives member phrase →
      Derives further rest → Derives further (connective ++ phrase ++ rest)) :
    (Tail.startingWith le before attempts following read).Advances text (EndsIn further used) := by
  have htried := hattempts.append hmember.tried
  obtain ⟨found, more⟩ := read
  cases found with
  | none => exact nothing_advances hnone hpassed htried
  | some first =>
      obtain ⟨_, ⟨phrase, hphrase, rfl⟩, hbehind⟩ := hmember.passed first rfl
      have htail := hfollowing _ phrase first.rest.shorter hphrase hbehind
      obtain ⟨_, ⟨rest, hrest, rfl⟩, hend⟩ := htail.passed
      refine ⟨⟨_, ⟨connective ++ phrase ++ rest, hfurther phrase rest hphrase hrest, ?_⟩, hend⟩,
        htried.append htail.tried⟩
      simp only [List.append_assoc]

theorem conditions_advance (hnegation : ∀ t, t.length ≤ s.length → NegationAdvances text t)
    (hconditions : ∀ t, t.length < s.length → ConditionsAdvance text t) :
    ConditionsAdvance text s := by
  intro used hawaits hpassed
  have hle := length_skipGaps_le s
  have hop : (opAnd (skipGaps s)).Advances text (· = used ++ [.and]) :=
    (exactly_advances Lexeme.opAnd_reads hpassed.gap).named
      (hpassed.gap.canGoOn hawaits.isFront) .opAnd
  cases hfound : (opAnd (skipGaps s)).found with
  | none =>
      have hmember := hnegation (skipGaps s) hle used hawaits.adjacent hpassed.gap
      rw [conditions_eq_of_none hfound]
      refine Tail.startingWith_advances [] hpassed hop.tried (by simpa) ?_
        .noCondition fun _ _ => .adjacent
      intro u phrase hshorter hphrase hu
      rw [List.append_nil] at hu ⊢
      exact hconditions u (Nat.lt_of_lt_of_le hshorter hle) _ (hawaits.furtherAdjacent hphrase) hu
  | some op =>
      have hnext := op.length_next_lt
      obtain ⟨_, rfl, hbehind⟩ := hop.passed op hfound
      have hmember := hnegation op.next op.length_next_le _ hawaits.joined hbehind.gap
      rw [conditions_eq_of_some hfound]
      refine Tail.startingWith_advances [.and] hpassed hop.tried hmember ?_ .noCondition
        fun _ _ => .joined
      intro u phrase hshorter hphrase hu
      exact hconditions u (by omega) _ (hawaits.furtherJoined hphrase) hu

theorem alternatives_advance (hconjunction : ∀ t, t.length < s.length → ConjunctionAdvances text t)
    (halternatives : ∀ t, t.length < s.length → AlternativesAdvance text t) :
    AlternativesAdvance text s := by
  intro used hawaits hpassed
  have hle := length_skipGaps_le s
  have hop : (opOr (skipGaps s)).Advances text (· = used ++ [.or]) :=
    (exactly_advances Lexeme.opOr_reads hpassed.gap).named
      (hpassed.gap.canGoOn hawaits.isFront) .opOr
  cases hfound : (opOr (skipGaps s)).found with
  | none =>
      rw [alternatives_eq_of_none hfound]
      exact Tail.nothing_advances .noAlternative hpassed hop.tried
  | some op =>
      have hnext := op.length_next_lt
      obtain ⟨_, rfl, hbehind⟩ := hop.passed op hfound
      have hmember := hconjunction op.next (by omega) _ hawaits.alternative hbehind.gap
      rw [alternatives_eq_of_some hfound]
      refine Tail.startingWith_advances [.or] hpassed hop.tried hmember ?_ .noAlternative
        fun _ _ => .alternative
      intro u phrase hshorter hphrase hu
      exact halternatives u (by omega) _ (hawaits.furtherAlternatives hphrase) hu

/-- Every disjunction that is asked for is read in this way. -/
theorem advances (text s : List Char) : DisjunctionAdvances text s :=
  reader_induction (NegationAdvances text) (ConditionsAdvance text) (ConjunctionAdvances text)
    (AlternativesAdvance text) (DisjunctionAdvances text) (fun _ => negation_advances)
    (fun _ => conditions_advance) (fun _ => conjunction_advances) (fun _ => alternatives_advance)
    (fun _ => disjunction_advances) s

end Grammar

/-! ### Whole texts -/

/-- Wherever anything is tried on a text, what stands in front can go on to be a query. -/
theorem Outcome.query_allCanGoOn (text : List Char) :
    AllCanGoOn text (Outcome.query text).attempts := by
  have hstart : Passed text [] (skipGaps text) := .gap .start
  have hempty : IsFront [] := Awaits.query.isFront
  have hdisjunction := Grammar.advances text _ [] .query hstart
  refine allCanGoOn_tried (Passed.start.canGoOn hempty) (hdisjunction.tried.append ?_)
  refine allCanGoOn_tried ?_ (allCanGoOn_nil text)
  cases hread : (Grammar.disjunction (skipGaps text)).found with
  | none => exact hstart.canGoOn hempty
  | some found =>
      obtain ⟨_, ⟨phrase, hphrase, rfl⟩, hbehind⟩ := hdisjunction.passed found hread
      exact hbehind.gap.canGoOn ⟨0, .inl (by simpa [closings] using hphrase)⟩

/-- So it can in front of the farthest failure. -/
theorem Outcome.query_farthest (text : List Char) :
    CanGoOn text (Failure.ofAttempts text.length (Outcome.query text).attempts).after := by
  rcases Attempt.after_recordAll (Outcome.query text).attempts (Failure.start text.length) with
    hstart | hplace
  · rw [Failure.ofAttempts, hstart]
    exact Passed.start.canGoOn Awaits.query.isFront
  · exact query_allCanGoOn text _ hplace

/-- The line and the column of a rejection are those of a place in the text, and what stands in
front of that place can go on so that it is a query. -/
theorem parse_rejected_behind_front {text : String} {rejection : Rejection}
    (hrejected : parse text = .error (.rejected rejection)) :
    ∃ before rest : String, text = before ++ rest ∧
      rejection.place =
        ⟨before.toList.count '\n' + 1, (lastLine before.toList).length + 1⟩ ∧
      ∃ more node, parse (before ++ more) = .ok node := by
  rw [parse_eq_rejected_iff] at hrejected
  obtain rfl := clauseOf_eq_error hrejected
  obtain ⟨before, rest, htext, hrest, more, hquery⟩ := Outcome.query_farthest text.toList
  have hbefore : text.toList.take (text.toList.length - rest.length) = before := by
    simp [htext]
  refine ⟨String.ofList before, String.ofList rest, ?_, ?_, String.ofList more, ?_⟩
  · rw [← String.ofList_append, ← htext, String.ofList_toList]
  · rw [String.toList_ofList, ← Place.after_eq, Rejection.ofFailure, ← hrest, hbefore]
  · rwa [← @String.toList_ofList (before ++ more), isQuery_iff_parse,
      String.ofList_append] at hquery

/-- What stands before the quote that nothing closes can go on to be a query. -/
theorem parse_rejected_behind_front_unclosed : ∃ rejection,
    parse "age > 7 &\n(name = 'ann" = .error (.rejected rejection) ∧
    rejection.place = ⟨2, 9⟩ ∧
    ∃ more node, parse ("age > 7 &\n(name = " ++ more) = .ok node := by
  have hrejected : parse "age > 7 &\n(name = 'ann" =
      .error (.rejected ⟨.expected [.quoted, .word], ⟨2, 9⟩, "(name = 'ann"⟩) := by decide +kernel
  refine ⟨_, hrejected, rfl, ?_⟩
  obtain ⟨before, rest, htext, hplace, hmore⟩ := parse_rejected_behind_front hrejected
  -- no other front of the text ends at this line and column
  have honly : ∀ front ∈ "age > 7 &\n(name = 'ann".toList.inits,
      (⟨2, 9⟩ : Place) = ⟨front.count '\n' + 1, (lastLine front).length + 1⟩ →
        front = "age > 7 &\n(name = ".toList := by decide
  have hbefore := honly before.toList (by simp [htext]) hplace
  rwa [String.toList_inj.mp hbefore] at hmore

end FieldSearch.Query
