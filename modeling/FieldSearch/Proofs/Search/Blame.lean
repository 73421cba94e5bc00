import FieldSearch.Proofs.Compile.Faults
import FieldSearch.Proofs.Search.Blank

/-! Whose fault it is that a text cannot be searched for. Texts are read as normal trees, and in a
definition that was built no field is compared by `not`, so whatever goes wrong when the tree of a
text is compiled has its cause in the text. The errors about trees of another shape are left to
trees that come from elsewhere. -/

namespace FieldSearch

/-! ### Faults of normal trees -/

/-- Whatever is wrong with a node of a normal tree is the fault of the query: it asks for a field
that is not there, or for none where none can be searched, or there are too many negations around
it. -/
theorem Node.IsNormal.isUserError {definition : Definition} {node : Node} (hnormal : node.IsNormal)
    {depth : Nat} {visit : Visit} (hvisit : visit ∈ node.visits depth) {error : CompileError}
    (hfault : visit.HasFault definition error) : error.isUserError := by
  induction hnormal generalizing depth with
  | leaf =>
      obtain rfl := List.mem_singleton.mp hvisit
      cases hfault
      rfl
  | prefixed hop =>
      rw [visits_comparison hop] at hvisit
      obtain rfl := List.mem_singleton.mp hvisit
      cases hfault with
      | prefixedUnresolved => rfl
      | _ => simp_all [leafValue?]
  | comparison hop =>
      rw [Node.comparison, visits_comparison hop] at hvisit
      obtain rfl := List.mem_singleton.mp hvisit
      cases hfault with
      | namedUnknown => rfl
      | _ => simp_all [leafValue?]
  | negation _ ih =>
      rw [Node.not, visits_not] at hvisit
      rcases List.mem_cons.mp hvisit with rfl | hbelow
      · cases hfault with
        | negationDepth => rfl
        | _ => simp_all
      · exact ih hbelow
  | logical hlength _ _ ih =>
      rw [visits_logical] at hvisit
      rcases List.mem_cons.mp hvisit with rfl | hbelow
      · cases hfault
        simp at hlength
      · obtain ⟨operand, hmem, hoperand⟩ := List.mem_flatMap.mp hbelow
        exact ih operand hmem hoperand

/-! ### Searches -/

namespace Search

/-- A text that is read as empty is not even read, so no search fails because of it. -/
theorem ofQuery_ne_empty {registry : Registry} {query : Option String} :
    ofQuery registry query ≠ .error (.query .empty) := by
  unfold ofQuery
  cases query with
  | none => simp
  | some text =>
      dsimp only
      split
      · simp
      next hblank =>
        split
        next error hparse =>
          rintro ⟨⟩
          have hgaps := Query.parse_eq_empty_iff.mp hparse
          exact hblank (Text.isBlank_iff.mpr fun c hc => Query.isWhite_of_isGap (hgaps c hc))
        · split <;> simp

/-- A search that fails while it is compiled fails by compiling a normal tree. -/
theorem ofQuery_eq_compile_error {registry : Registry} {query : Option String}
    {cause : CompileError} (hsearch : ofQuery registry query = .error (.compile cause)) :
    ∃ node, node.IsNormal ∧ ofNode registry node = .error cause := by
  unfold ofQuery at hsearch
  cases query with
  | none => cases hsearch
  | some text =>
      dsimp only at hsearch
      split at hsearch
      · cases hsearch
      split at hsearch
      · cases hsearch
      next node hparse =>
        split at hsearch
        next hfails =>
          cases hsearch
          exact ⟨node, Query.parse_isNormal hparse, hfails⟩
        · cases hsearch

theorem ofNode_blamesQuery {definition : Definition}
    (hcompares : ∀ field ∈ definition.fields, field.defaultOperator ≠ .not) {node : Node}
    (hnormal : node.IsNormal) {cause : CompileError}
    (hfails : ofNode definition.registry node = .error cause) : cause.isUserError := by
  unfold ofNode at hfails
  split at hfails
  next error trace hrun =>
    cases hfails
    obtain ⟨before, visit, after, hvisits, -, hfault⟩ :=
      (node.compile_reports hcompares 0 0 _).mp (by rw [hrun])
    have hvisit : visit ∈ node.visits 0 := by simp [hvisits]
    exact hnormal.isUserError hvisit hfault
  next => cases hfails

end Search

/-- The causes that lie in the query. -/
theorem CompileError.cases_of_isUserError {cause : CompileError} (huser : cause.isUserError) :
    cause = .negationTooDeep ∨ (∃ name, cause = .unknownField name) ∨
      ∃ value, cause = .unresolvedField value := by
  cases cause <;> simp_all [isUserError]

/-- Texts are read as normal trees, and a search in a definition that was built fails only because
of the text: it is rejected by the grammar, or its tree has too many negations inside one another,
or asks for a field that is not there or for none where none can be searched. -/
theorem Search.ofQuery_blames_query :
    (∀ text node, Query.parse text = .ok node → node.IsNormal) ∧
    ∀ (builder : Builder) (definition : Definition), builder.build = .ok definition →
      ∀ query error, ofQuery definition.registry query = .error error →
        error.isUserError ∧ error ≠ .query .empty ∧
          ∀ cause, error = .compile cause → cause = .negationTooDeep ∨
            (∃ name, cause = .unknownField name) ∨ ∃ value, cause = .unresolvedField value := by
  refine ⟨fun text node => Query.parse_isNormal,
    fun builder definition hbuild query error hfails => ?_⟩
  have hcauses : ∀ cause, error = .compile cause → cause.isUserError := by
    rintro cause rfl
    obtain ⟨node, hnormal, hnode⟩ := ofQuery_eq_compile_error hfails
    exact ofNode_blamesQuery (Builder.build_compares hbuild) hnormal hnode
  refine ⟨?_, ?_, fun cause hcause => CompileError.cases_of_isUserError (hcauses cause hcause)⟩
  · cases error with
    | query error => rfl
    | compile cause => exact hcauses cause rfl
  · rintro rfl
    exact ofQuery_ne_empty hfails

/-- A negated comparison with a field that people do not have. -/
theorem Search.ofQuery_blames_query_nick :
    (Node.not (.comparison "nick" .eq "Ann")).IsNormal ∧
    (SearchError.compile (.unknownField "nick")).isUserError := by
  have hnick : Query.WritesValue "nick" "nick".toList :=
    .bare (by decide) (by decide) (by decide)
  have hann : Query.WritesValue "Ann" "Ann".toList := .bare (by decide) (by decide) (by decide)
  have hequals : Query.WritesOperator .eq ['='] := by decide
  have hnot : Query.IsCaseless ['n', 'o', 't'] ['n', 'o', 't'] := rfl
  have hterm := Query.Renders.keyword hnot Query.isSpace_space
    (.comparison hnick Query.isSpace_space hequals Query.isSpace_space hann) (.inl (by simp))
  have hparse : Query.parse "not nick = Ann" = .ok (.not (.comparison "nick" .eq "Ann")) :=
    Query.parse_of_isRendering (.negation (.comparison (by simp)))
      ⟨[], _, [], by decide, Query.isSpace_nil, .single (.single hterm),
        Query.isSpace_nil⟩
  have hsearch : ofQuery Sample.people.registry (some "not nick = Ann") =
      .error (.compile (.unknownField "nick")) := by
    rw [ofQuery_of_not_blank (by decide) hparse]
    rfl
  have hbuild : (⟨"people", .utc, [{ name := "name", type := .string },
      { name := "born_on", type := .date }]⟩ : Builder).build = .ok Sample.people := rfl
  obtain ⟨hnormal, hblames⟩ := ofQuery_blames_query
  exact ⟨hnormal _ _ hparse, (hblames _ _ hbuild _ _ hsearch).1⟩

end FieldSearch
