import FieldSearch.Proofs.Compile.Alignment

/-! A term that is dropped might as well not have been written. A comparison with a temporal field
that cannot read the value is deleted from the tree, and with it every negation and every list that
nothing is left of; what is left compiles to the same condition and binds the same values. Terms
without a field name are never deleted, because their default fields can read the value. -/

namespace FieldSearch

/-- The value is no pattern to be looked for and no date or time for the field to be compared with.
-/
def Field.Rejects (field : Field) (zone : Calendar.Zone) (op : Operator) (value : String) : Prop :=
  field.type.isTemporal ∧ ¬(op.isPattern ∧ ¬hasWildcard value) ∧
    field.readTemporal zone value = none

instance (field : Field) (zone : Calendar.Zone) (op : Operator) (value : String) :
    Decidable (field.Rejects zone op value) :=
  inferInstanceAs (Decidable (_ ∧ _ ∧ _ = none))

/-- The field with a name rejects the value. -/
def Definition.Rejects (definition : Definition) (name : String) (op : Operator) (value : String) :
    Prop :=
  ∃ field ∈ definition.field? name, field.Rejects definition.zone op value

instance (definition : Definition) (name : String) (op : Operator) (value : String) :
    Decidable (definition.Rejects name op value) :=
  inferInstanceAs (Decidable (∃ field ∈ definition.field? name, _))

mutual

/-- What is left of a tree without the comparisons that are dropped, if anything is. -/
def Node.prune (definition : Definition) : Node → Option Node
  | .operator .not [operand] => (operand.prune definition).map Node.not
  | .operator op [.leaf name, .leaf value] =>
    if definition.Rejects name op value then none
    else some (.operator op [.leaf name, .leaf value])
  | .logical op operands =>
    match Node.pruneAll definition operands with
    | [] => none
    | kept => some (.logical op kept)
  | other => some other

/-- What is left of one tree after another. -/
def Node.pruneAll (definition : Definition) : List Node → List Node
  | [] => []
  | node :: nodes => (node.prune definition).toList ++ Node.pruneAll definition nodes

end

namespace Compilation

variable {α β : Type}

/-- The step yields this and binds these values, wherever it is taken. -/
def Gives (step : Compilation α) (a : α) (bound : List BindValue) : Prop :=
  ∀ lookups, ∃ trace, step lookups = (.ok a, trace) ∧ trace.bound = bound

/-- What a steady step gives is known from one run. -/
theorem IsSteady.gives {step : Compilation α} (hsteady : IsSteady step) {lookups : Nat} {a : α}
    {trace : Trace} (run : step lookups = (.ok a, trace)) : step.Gives a trace.bound :=
  fun lookups' => ⟨trace, hsteady lookups' lookups ▸ run, rfl⟩

namespace Gives

theorem pure (a : α) : Gives (Pure.pure a : Compilation α) a [] :=
  fun _ => ⟨{}, rfl, rfl⟩

theorem bind {first : Compilation α} {next : α → Compilation β} {a : α} {b : β}
    {before after : List BindValue} (hfirst : first.Gives a before)
    (hnext : (next a).Gives b after) : (first >>= next).Gives b (before ++ after) := by
  intro lookups
  obtain ⟨trace, hrun, rfl⟩ := hfirst lookups
  obtain ⟨more, hmore, rfl⟩ := hnext (lookups + trace.lookups)
  exact ⟨trace ++ more, bind_eq_ok.mpr ⟨a, trace, more, hrun, hmore, rfl⟩, rfl⟩

end Gives

end Compilation

open Compilation (Gives)

namespace Condition

/-- Only the conditions that are there count for a list. -/
theorem join_filter_isSome (op : Connective) (conditions : List (Option Condition)) :
    join op (conditions.filter Option.isSome) = join op conditions := by
  have hsame : (conditions.filter Option.isSome).filterMap id = conditions.filterMap id := by
    induction conditions with
    | nil => rfl
    | cons condition conditions ih => cases condition <;> simpa using ih
  unfold join
  rw [hsame]

/-- There is a list as soon as there is a condition for it. -/
theorem join_eq_none_iff {op : Connective} {conditions : List (Option Condition)} :
    join op conditions = none ↔ conditions.filter Option.isSome = [] := by
  induction conditions with
  | nil => simp [join]
  | cons condition conditions ih =>
      cases condition with
      | none => simpa [join] using ih
      | some condition =>
          obtain ⟨joined, hjoined, -⟩ := exists_join_some op condition conditions
          simp [hjoined]

theorem negate_gives {compile : Compilation (Option Condition)} {condition : Condition}
    {bound : List BindValue} (hcompile : compile.Gives (some condition) bound) :
    (negate compile).Gives (some (.negation condition condition)) (bound ++ bound) := by
  apply hcompile.bind
  rw [← List.append_nil bound]
  exact hcompile.bind (.pure _)

end Condition

/-- A comparison tests nothing exactly if the field rejects the value. -/
theorem Field.condition_yield_eq_none_iff {field : Field} {zone : Calendar.Zone} (token : String)
    {op : Operator} {value : String} :
    (field.yield zone token op value).condition = none ↔ field.Rejects zone op value := by
  unfold Rejects
  rw [← boundValue?_eq_none_iff]
  unfold yield
  cases field.boundValue? zone op value <;> simp [Yield.nothing]

/-- Tests of fields leave something to test if the first of them does. -/
theorem TestsTo.join_isSome {zone : Calendar.Zone} {op : Field → Operator} {value : String}
    {field : Field} {fields : List Field} {yields : List Yield}
    (htests : TestsTo zone op value (field :: fields) yields)
    (hbinds : (field.boundValue? zone (op field) value).isSome) :
    (Yield.join .or yields).condition.isSome := by
  obtain ⟨bound, hbound⟩ := Option.isSome_iff_exists.mp hbinds
  cases htests with
  | @cons _ _ token yields _ _ =>
      obtain ⟨joined, hjoined, -⟩ :=
        Condition.exists_join_some .or (.test field.columnSql token) (yields.map Yield.condition)
      simp [Yield.join, Field.yield, hbound, hjoined]

/-- A value that is looked for in its default fields is tested in the first of them at least. -/
theorem Registry.testDefaults_isSome {definition : Definition} {given : Option Operator}
    {op : Field → Operator} {value : String} {lookups : Nat} {condition : Option Condition}
    {trace : Trace}
    (run : definition.registry.testDefaults given op value lookups = (.ok condition, trace)) :
    condition.isSome := by
  obtain ⟨hsome, yields, htests, hyield⟩ := testDefaults_eq_ok run
  have hbinds : ∀ field ∈ definition.registry.defaultFields lookups value given,
      (field.boundValue? definition.zone (op field) value).isSome :=
    fun field hfield => Definition.boundValue?_isSome hfield (op field)
  obtain ⟨field, fields, hfields⟩ := List.exists_cons_of_ne_nil hsome
  rw [hfields] at htests hbinds
  have hjoined := htests.join_isSome (hbinds field (by simp))
  rwa [hyield] at hjoined

theorem Definition.rejects_iff {definition : Definition} {name : String} {field : Field}
    (hfield : definition.field? name = some field) {op : Operator} {value : String} :
    definition.Rejects name op value ↔ field.Rejects definition.zone op value := by
  simp [Rejects, hfield]

namespace Node

variable {definition : Definition} {registry : Registry} {depth lookups : Nat} {trace : Trace}

@[simp]
theorem prune_leaf (value : String) : (leaf value).prune definition = some (leaf value) := by
  simp [prune]

@[simp]
theorem prune_prefixed (op : Operator) (value : String) :
    (operator op [leaf value]).prune definition = some (operator op [leaf value]) := by
  cases op <;> simp [prune, not]

theorem prune_not (operand : Node) :
    (not operand).prune definition = (operand.prune definition).map not := by
  simp [not, prune]

theorem prune_comparison (name : String) (op : Operator) (value : String) :
    (operator op [leaf name, leaf value]).prune definition =
      if definition.Rejects name op value then none
      else some (operator op [leaf name, leaf value]) := by
  simp [prune]

theorem logical_gives {op : Connective} {operands : List Node} (hsome : operands ≠ [])
    {conditions : List (Option Condition)} {bound : List BindValue}
    (hoperands : (compileAll registry depth operands).Gives conditions bound) :
    ((logical op operands).compile registry depth).Gives (Condition.join op conditions) bound := by
  rw [compile_logical hsome, ← List.append_nil bound]
  exact hoperands.bind (.pure _)

/-- Each operand yields one condition or nothing. -/
theorem compileAll_length {nodes : List Node} {conditions : List (Option Condition)}
    (run : compileAll registry depth nodes lookups = (.ok conditions, trace)) :
    conditions.length = nodes.length := by
  induction nodes generalizing lookups conditions trace with
  | nil =>
      obtain ⟨⟨⟩, rfl⟩ := Prod.mk.inj run
      rfl
  | cons node nodes ih =>
      obtain ⟨found, before, after, hfirst, hothers, rfl⟩ := Compilation.bind_eq_ok.mp run
      obtain ⟨others, middle, last, htail, hlast, rfl⟩ := Compilation.bind_eq_ok.mp hothers
      obtain ⟨⟨⟩, rfl⟩ := Prod.mk.inj hlast
      simp [ih htail]

/-- What compiles to nothing binds nothing. -/
theorem bound_eq_nil_of_dropped {node : Node}
    (run : node.compile definition.registry depth lookups = (.ok none, trace)) :
    trace.bound = [] :=
  (compilesTo_of_compile run).isAligned

/-- The tree compiles to nothing if nothing is left of it, and else to the same as what is left. -/
def PruneSafe (definition : Definition) (depth : Nat) (node : Node) (condition : Option Condition)
    (bound : List BindValue) : Prop :=
  match node.prune definition with
  | none => condition = none
  | some kept =>
    condition.isSome ∧ (kept.compile definition.registry depth).Gives condition bound

/-- A tree that nothing is deleted from only has to compile to something. -/
theorem PruneSafe.of_kept {node : Node} {condition : Option Condition}
    (hkept : node.prune definition = some node)
    (run : node.compile definition.registry depth lookups = (.ok condition, trace))
    (hsome : condition.isSome) : node.PruneSafe definition depth condition trace.bound := by
  unfold PruneSafe
  rw [hkept]
  exact ⟨hsome, (compile_steady definition node depth).gives run⟩

theorem PruneSafe.negation_dropped {operand : Node} {bound : List BindValue}
    (hsafe : operand.PruneSafe definition (depth + 1) none bound) :
    (not operand).PruneSafe definition depth none bound := by
  unfold PruneSafe at hsafe ⊢
  rw [prune_not]
  cases hprune : operand.prune definition with
  | none => rfl
  | some kept => simp [hprune] at hsafe

theorem PruneSafe.negation {operand : Node} {condition : Condition} {bound : List BindValue}
    (hdepth : depth < negationLimit)
    (hsafe : operand.PruneSafe definition (depth + 1) (some condition) bound) :
    (not operand).PruneSafe definition depth (some (.negation condition condition))
      (bound ++ bound) := by
  unfold PruneSafe at hsafe ⊢
  rw [prune_not]
  cases hprune : operand.prune definition with
  | none => simp [hprune] at hsafe
  | some kept =>
      rw [hprune] at hsafe
      obtain ⟨-, hkept⟩ := hsafe
      refine ⟨rfl, ?_⟩
      rw [compile_not hdepth]
      exact Condition.negate_gives hkept

/-- Something is left of a list if something is left of one of its operands. -/
theorem PruneSafe.logical {op : Connective} {operands : List Node}
    {conditions : List (Option Condition)} {bound : List BindValue}
    (hkept : (compileAll definition.registry depth (pruneAll definition operands)).Gives
      (conditions.filter Option.isSome) bound) :
    (logical op operands).PruneSafe definition depth (Condition.join op conditions) bound := by
  obtain ⟨trace, hrun, -⟩ := hkept 0
  have hlength := compileAll_length hrun
  unfold PruneSafe prune
  cases hall : pruneAll definition operands with
  | nil =>
      rw [hall, List.length_nil, List.length_eq_zero_iff] at hlength
      exact Condition.join_eq_none_iff.mpr hlength
  | cons first rest =>
      rw [hall] at hkept hlength
      constructor
      · rw [Option.isSome_iff_ne_none, ne_eq, Condition.join_eq_none_iff]
        rintro hnone
        simp [hnone] at hlength
      · rw [← Condition.join_filter_isSome]
        exact logical_gives (List.cons_ne_nil first rest) hkept

/-- What is left of the operands compiles to what is left of their conditions. -/
theorem compileAll_prune {nodes : List Node}
    (hsafe : ∀ node ∈ nodes, ∀ {lookups : Nat} {condition : Option Condition} {trace : Trace},
      node.compile definition.registry depth lookups = (.ok condition, trace) →
        node.PruneSafe definition depth condition trace.bound)
    {conditions : List (Option Condition)}
    (run : compileAll definition.registry depth nodes lookups = (.ok conditions, trace)) :
    (compileAll definition.registry depth (pruneAll definition nodes)).Gives
      (conditions.filter Option.isSome) trace.bound := by
  induction nodes generalizing lookups conditions trace with
  | nil =>
      obtain ⟨⟨⟩, rfl⟩ := Prod.mk.inj run
      exact .pure []
  | cons node nodes ih =>
      obtain ⟨found, before, after, hfirst, hothers, rfl⟩ := Compilation.bind_eq_ok.mp run
      obtain ⟨others, middle, last, htail, hlast, rfl⟩ := Compilation.bind_eq_ok.mp hothers
      obtain ⟨⟨⟩, rfl⟩ := Prod.mk.inj hlast
      have hrest := ih (fun node hnode => hsafe node (by simp [hnode])) htail
      have hnode := hsafe node (by simp) hfirst
      unfold PruneSafe at hnode
      unfold pruneAll
      cases hprune : node.prune definition with
      | none =>
          obtain rfl : found = none := by simpa [hprune] using hnode
          simpa [bound_eq_nil_of_dropped hfirst] using hrest
      | some kept =>
          rw [hprune] at hnode
          obtain ⟨hsome, hkept⟩ := hnode
          rw [List.filter_cons_of_pos hsome]
          exact hkept.bind (hrest.bind (.pure _))

/-- A tree that compiles is safe to prune. -/
theorem pruneSafe_of_compile {node : Node} {condition : Option Condition}
    (run : node.compile definition.registry depth lookups = (.ok condition, trace)) :
    node.PruneSafe definition depth condition trace.bound := by
  refine compile_induction (motive := fun node depth step => ∀ {lookups condition trace},
    step lookups = (.ok condition, trace) → node.PruneSafe definition depth condition trace.bound)
    ?keyword ?prefixed ?named ?malformed ?deepNegation ?negation ?emptyList ?list node depth run
  case keyword =>
      intro value depth lookups condition trace run
      exact .of_kept (prune_leaf value) run (Registry.testDefaults_isSome run)
  case prefixed =>
      intro op value depth hop lookups condition trace run
      have hcompiled := run
      rw [← compile_prefixed hop] at hcompiled
      obtain ⟨text, rfl, hdefaults⟩ := Registry.comparePrefixed_eq_ok run
      exact .of_kept (prune_prefixed op text) hcompiled (Registry.testDefaults_isSome hdefaults)
  case named =>
      intro op left right depth hop lookups condition trace run
      have hcompiled := run
      rw [← compile_named hop] at hcompiled
      obtain ⟨name, value, rfl, rfl, hnamed⟩ := Registry.compareNamed_eq_ok run
      obtain ⟨field, token, hfield, htoken, hyield⟩ := Registry.testNamed_eq_ok hnamed
      have hcondition := congrArg Yield.condition hyield
      have hrejects : definition.Rejects name op value ↔ condition = none := by
        rw [Definition.rejects_iff hfield, ← Field.condition_yield_eq_none_iff token]
        exact Eq.congr_left hcondition
      by_cases hdropped : definition.Rejects name op value
      · simp [PruneSafe, prune_comparison, hdropped, hrejects.mp hdropped]
      · refine .of_kept (by simp [prune_comparison, hdropped]) hcompiled ?_
        exact Option.isSome_iff_ne_none.mpr (hdropped ∘ hrejects.mpr)
  case malformed => simp
  case deepNegation => simp
  case negation =>
      intro operand depth hshallow hoperand lookups condition trace run
      obtain ⟨first, ⟨hfirst, rfl, hbound⟩ | ⟨negated, hfirst, rfl, hbound⟩⟩ :=
        Condition.negate_eq_ok_of_steady (compile_steady definition operand _) run
      · exact hbound ▸ (hoperand hfirst).negation_dropped
      · exact hbound ▸ (hoperand hfirst).negation hshallow
  case emptyList => simp
  case list =>
      intro op operands depth hsome hoperands lookups condition trace run
      obtain ⟨conditions, before, after, hall, hjoin, rfl⟩ := Compilation.bind_eq_ok.mp run
      obtain ⟨⟨⟩, rfl⟩ := Prod.mk.inj hjoin
      have hkept := compileAll_prune hoperands hall
      simpa using PruneSafe.logical hkept

end Node

/-- Nothing is left of a tree exactly if it compiles to nothing, and what is left compiles to the
same text and binds the same values. -/
theorem Renderer.compile_pruned (definition : Definition) :
    (∀ renderer : Renderer, renderer.registry = definition.registry →
      ∀ (node : Node) (depth : Nat) (fragment : Fragment) (after : Renderer),
      renderer.takeFragment (node.compile renderer.registry depth) = (.ok fragment, after) →
        (fragment = none ↔ node.prune definition = none) ∧
        ∀ kept, node.prune definition = some kept → ∃ after',
          renderer.takeFragment (kept.compile renderer.registry depth) = (.ok fragment, after') ∧
            after'.params = after.params) ∧
    ∀ value given, ∀ field ∈ definition.defaultFields value given, field.type.isTemporal →
      (field.readTemporal definition.zone value).isSome := by
  refine ⟨fun renderer hregistry node depth fragment after hcompile => ?_,
    fun value given field hmem => Definition.readTemporal_isSome hmem⟩
  rw [hregistry] at hcompile ⊢
  obtain ⟨condition, trace, hrun, rfl, hparams⟩ := takeFragment_eq_ok hcompile
  have hsafe := Node.pruneSafe_of_compile hrun
  unfold Node.PruneSafe at hsafe
  cases hprune : node.prune definition with
  | none =>
      rw [hprune] at hsafe
      subst hsafe
      simp
  | some kept =>
      rw [hprune] at hsafe
      obtain ⟨hsome, hkept⟩ := hsafe
      constructor
      · simpa [Option.isSome_iff_ne_none] using hsome
      · rintro _ ⟨⟩
        obtain ⟨trace', hrun', hbound⟩ := hkept renderer.lookups
        refine ⟨_, takeFragment_of_ok hrun', ?_⟩
        simp [hparams, hbound]

/-- Behind a parameter that was there before, a date that cannot be read is dropped from a list. -/
theorem Renderer.compile_pruned_date :
    (Node.logical .and [.not (.comparison "name" .like "Ann"),
      .comparison "born_on" .gte "soon"]).prune Sample.people =
        some (.logical .and [.not (.comparison "name" .like "Ann")]) ∧
    ∃ after', (⟨Sample.people.registry, [.string "given"], 1⟩ : Renderer).takeFragment
        ((Node.logical .and [.not (.comparison "name" .like "Ann")]).compile
          Sample.people.registry 0) =
        (.ok (some "((NOT(people.name LIKE ?) OR people.name LIKE ? IS NULL))"), after') ∧
      after'.params = [.string "given", .string "%Ann%", .string "%Ann%"] := by
  have hprune : (Node.logical .and [.not (.comparison "name" .like "Ann"),
      .comparison "born_on" .gte "soon"]).prune Sample.people =
        some (.logical .and [.not (.comparison "name" .like "Ann")]) := by
    decide
  obtain ⟨-, hkept⟩ := (compile_pruned Sample.people).1
    ⟨Sample.people.registry, [.string "given"], 1⟩ rfl
    (.logical .and [.not (.comparison "name" .like "Ann"), .comparison "born_on" .gte "soon"]) 0
    (some "((NOT(people.name LIKE ?) OR people.name LIKE ? IS NULL))")
    ⟨Sample.people.registry, [.string "given", .string "%Ann%", .string "%Ann%"], 4⟩ rfl
  exact ⟨hprune, hkept _ hprune⟩

end FieldSearch
