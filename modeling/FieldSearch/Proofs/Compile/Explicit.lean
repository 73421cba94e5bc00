import FieldSearch.Definition.Sample
import FieldSearch.Proofs.Compile.Run
import FieldSearch.Proofs.Definition.Building
import Mathlib.Order.Monotone.Basic

/-! Fields that are searched only where they are named. A tree asks a registry for default fields, for
the fields that its comparisons name, and for nothing else, so two registries that agree on these
compile it alike. Explicit fields are never default fields, wherever they stand among the others, and
the others keep their order. -/

namespace FieldSearch

/-- A comparison with two operands somewhere in the tree has the name as its left one. -/
inductive Node.Names (name : String) : Node → Prop
  | comparison {op value} : op ≠ .not → Names name (.operator op [.leaf name, value])
  | operand {op operands operand} : operand ∈ operands → Names name operand →
      Names name (.operator op operands)
  | member {op operands operand} : operand ∈ operands → Names name operand →
      Names name (.logical op operands)

/-- The list `extended` is `fields` with the explicit fields `inserted` among them. -/
inductive InsertsExplicit : List Field → List Field → List Field → Prop
  | nil : InsertsExplicit [] [] []
  | keep {inserted fields extended} (field : Field) : InsertsExplicit inserted fields extended →
      InsertsExplicit inserted (field :: fields) (field :: extended)
  | insert {inserted fields extended} {field : Field} : field.onlyExplicit = true →
      InsertsExplicit inserted fields extended →
      InsertsExplicit (field :: inserted) fields (field :: extended)

/-! ### What a tree asks for -/

section Agreement

variable {registry registry' : Registry}

namespace Registry

theorem test_congr (hzone : registry.zone = registry'.zone) (field : Field) (op : Operator)
    (value : String) : registry.test field op value = registry'.test field op value := by
  unfold test
  rw [hzone]

theorem testAll_congr (hzone : registry.zone = registry'.zone) (op : Field → Operator)
    (value : String) (fields : List Field) :
    registry.testAll op value fields = registry'.testAll op value fields := by
  induction fields with
  | nil => rfl
  | cons field fields ih =>
      unfold testAll
      rw [test_congr hzone, ih]

theorem testDefaults_congr (hdefaults : registry.defaultFields = registry'.defaultFields)
    (hzone : registry.zone = registry'.zone) (given : Option Operator) (op : Field → Operator)
    (value : String) :
    registry.testDefaults given op value = registry'.testDefaults given op value := by
  unfold testDefaults
  simp only [hdefaults, testAll_congr hzone]

theorem testNamed_congr (hzone : registry.zone = registry'.zone) {name : String}
    (hfield : ∀ n, registry.field? n name = registry'.field? n name) (op : Operator)
    (value : String) :
    registry.testNamed name op value = registry'.testNamed name op value := by
  unfold testNamed
  simp only [hfield, test_congr hzone]

theorem comparePrefixed_congr (hdefaults : registry.defaultFields = registry'.defaultFields)
    (hzone : registry.zone = registry'.zone) (op : Operator) (operand : Node) :
    registry.comparePrefixed op operand = registry'.comparePrefixed op operand := by
  unfold comparePrefixed
  simp only [testDefaults_congr hdefaults hzone]

theorem compareNamed_congr (hzone : registry.zone = registry'.zone) (op : Operator)
    {left : Node} (right : Node)
    (hfield : ∀ name, left = .leaf name → ∀ n, registry.field? n name = registry'.field? n name) :
    registry.compareNamed op left right = registry'.compareNamed op left right := by
  cases left with
  | leaf name =>
      unfold compareNamed
      simp only [Node.leafValue?, testNamed_congr hzone (hfield name rfl)]
  | operator | logical => rfl

end Registry

namespace Node

theorem compileAll_congr {depth : Nat} {nodes : List Node}
    (hnodes : ∀ node ∈ nodes, node.compile registry depth = node.compile registry' depth) :
    compileAll registry depth nodes = compileAll registry' depth nodes := by
  induction nodes with
  | nil => rfl
  | cons node nodes ih =>
      unfold compileAll
      rw [hnodes node (by simp), ih fun other hother => hnodes other (by simp [hother])]

/-- A tree is compiled alike by registries that agree on the zone, on default fields, and on the
fields that the tree names. -/
theorem compile_congr (hdefaults : registry.defaultFields = registry'.defaultFields)
    (hzone : registry.zone = registry'.zone) {node : Node}
    (hnamed : ∀ name, node.Names name → ∀ n, registry.field? n name = registry'.field? n name)
    (depth : Nat) : node.compile registry depth = node.compile registry' depth := by
  induction node using Node.induction generalizing depth with
  | leaf value => exact Registry.testDefaults_congr hdefaults hzone none Field.defaultOperator value
  | operator op operands ih =>
      induction op, operands using operator_cases with
      | negation operand =>
          have hoperand := ih operand (by simp)
            (fun name hname => hnamed name (.operand (.head []) hname)) (depth + 1)
          unfold compile
          rw [hoperand]
      | prefixed op value hop =>
          rw [compile_prefixed hop, compile_prefixed hop]
          exact Registry.comparePrefixed_congr hdefaults hzone op value
      | named op left right hop =>
          rw [compile_named hop, compile_named hop]
          apply Registry.compareNamed_congr hzone
          rintro name rfl
          exact hnamed name (.comparison hop)
      | malformed op operands arity => rw [compile_malformed arity, compile_malformed arity]
  | logical op operands ih =>
      have hoperands : ∀ operand ∈ operands,
          operand.compile registry depth = operand.compile registry' depth := fun operand hmem =>
        ih operand hmem (fun name hname => hnamed name (.member hmem hname)) depth
      cases operands with
      | nil => rfl
      | cons first rest =>
          have hsome := List.cons_ne_nil first rest
          rw [compile_logical hsome, compile_logical hsome, compileAll_congr hoperands]

end Node

end Agreement

/-! ### Inserting explicit fields -/

theorem Field.onlyExplicit_qualified (table : String) (field : Field) :
    (field.qualified table).onlyExplicit = field.onlyExplicit := by
  unfold qualified
  split <;> rfl

namespace InsertsExplicit

variable {inserted fields extended : List Field}

/-- Of the fields that are not explicit there are as many as before, in the same order. -/
theorem filter_eq (hinserts : InsertsExplicit inserted fields extended) (table : String)
    {p : Field → Bool} (hp : ∀ field, p field = true → field.onlyExplicit = false) :
    (extended.map (Field.qualified table)).filter p =
      (fields.map (Field.qualified table)).filter p := by
  induction hinserts with
  | nil => rfl
  | keep field _ ih => rw [List.map_cons, List.map_cons, List.filter_cons, List.filter_cons, ih]
  | @insert _ _ _ field hexplicit _ ih =>
      have hskip : p (field.qualified table) ≠ true := fun hkept => by
        have hvisible := hp _ hkept
        rw [Field.onlyExplicit_qualified, hexplicit] at hvisible
        cases hvisible
      rw [List.map_cons, List.filter_cons_of_neg hskip, ih]

/-- From the positions of fields to those that they have among inserted ones: the order is kept, and
at every other position stands an inserted field. -/
structure Moves (moved : Nat → Nat) (inserted fields extended : List Field) : Prop where
  strictMono : StrictMono moved
  kept : ∀ position, extended[moved position]? = fields[position]?
  others : ∀ position field, extended[position]? = some field →
    field ∈ inserted ∨ ∃ before, moved before = position

theorem exists_moves (hinserts : InsertsExplicit inserted fields extended) :
    ∃ moved, Moves moved inserted fields extended := by
  induction hinserts with
  | nil => exact ⟨id, strictMono_id, by simp, by simp⟩
  | @keep inserted fields extended field _ ih =>
      obtain ⟨moved, hmono, hkept, hothers⟩ := ih
      refine ⟨fun position => position.casesOn 0 fun before => moved before + 1, ?_, ?_, ?_⟩
      · rintro (_ | first) (_ | second) hlt
        · omega
        · exact Nat.succ_pos _
        · omega
        · exact Nat.succ_lt_succ (hmono (Nat.lt_of_succ_lt_succ hlt))
      · rintro (_ | before)
        · rfl
        · exact hkept before
      · rintro (_ | position) other hother
        · exact .inr ⟨0, rfl⟩
        · refine (hothers position other hother).imp_right ?_
          rintro ⟨before, rfl⟩
          exact ⟨before + 1, rfl⟩
  | @insert inserted fields extended field _ _ ih =>
      obtain ⟨moved, hmono, hkept, hothers⟩ := ih
      refine ⟨fun position => moved position + 1, ?_, hkept, ?_⟩
      · exact fun _ _ hlt => Nat.succ_lt_succ (hmono hlt)
      · rintro (_ | position) other hother
        · obtain rfl : field = other := Option.some.inj hother
          exact .inl (.head inserted)
        · rcases hothers position other hother with hmem | ⟨before, rfl⟩
          · exact .inl (.tail field hmem)
          · exact .inr ⟨before, rfl⟩

section Moved

variable {table : String} {zone : Calendar.Zone} {definition definition' : Definition}
  {moved : Nat → Nat} {name : String}

theorem fields_moved (hmoves : Moves moved inserted fields extended)
    (hmakes : (⟨table, zone, fields⟩ : Builder).Makes definition)
    (hmakes' : (⟨table, zone, extended⟩ : Builder).Makes definition') (position : Nat) :
    definition'.fields[moved position]? = definition.fields[position]? := by
  rw [hmakes.fields, hmakes'.fields, List.getElem?_map, List.getElem?_map]
  exact congrArg _ (hmoves.kept position)

/-- What is no name of an inserted field leads to the position that its field is moved to. -/
theorem position?_moved (hmoves : Moves moved inserted fields extended)
    (hmakes : (⟨table, zone, fields⟩ : Builder).Makes definition)
    (hmakes' : (⟨table, zone, extended⟩ : Builder).Makes definition')
    (hname : ∀ field ∈ inserted, name ∉ field.names) :
    definition'.index.position? name = (definition.index.position? name).map moved := by
  apply Option.ext
  intro position
  rw [hmakes'.locates name position, Option.map_eq_some_iff]
  constructor
  · rintro ⟨field, hfield, hown⟩
    rw [hmakes'.fields, List.getElem?_map, Option.map_eq_some_iff] at hfield
    obtain ⟨given, hgiven, rfl⟩ := hfield
    rcases hmoves.others position given hgiven with hinserted | ⟨before, rfl⟩
    · rw [Field.names_qualified] at hown
      exact absurd hown (hname given hinserted)
    · refine ⟨before, (hmakes.locates name before).mpr ⟨_, ?_, hown⟩, rfl⟩
      rw [← fields_moved hmoves hmakes hmakes', hmakes'.fields, List.getElem?_map, hgiven]
      rfl
  · rintro ⟨before, hbefore, rfl⟩
    rw [fields_moved hmoves hmakes hmakes']
    exact (hmakes.locates name before).mp hbefore

end Moved

/-- In a definition with fields inserted the others stand at other positions, in the same order, and
their names lead there. -/
theorem exists_moved (hinserts : InsertsExplicit inserted fields extended) {table : String}
    {zone : Calendar.Zone} {definition definition' : Definition}
    (hbuild : (⟨table, zone, fields⟩ : Builder).build = .ok definition)
    (hbuild' : (⟨table, zone, extended⟩ : Builder).build = .ok definition') :
    ∃ moved : Nat → Nat, StrictMono moved ∧
      (∀ position, definition'.fields[moved position]? = definition.fields[position]?) ∧
      ∀ name, (∀ field ∈ inserted, name ∉ field.names) →
        definition'.index.position? name = (definition.index.position? name).map moved := by
  have hmakes := Builder.makes_of_build hbuild
  have hmakes' := Builder.makes_of_build hbuild'
  obtain ⟨moved, hmoves⟩ := hinserts.exists_moves
  exact ⟨moved, hmoves.strictMono, fields_moved hmoves hmakes hmakes',
    fun _ hname => position?_moved hmoves hmakes hmakes' hname⟩

/-- What is no name of an inserted field names the field that it named before. -/
theorem field?_eq (hinserts : InsertsExplicit inserted fields extended) {table : String}
    {zone : Calendar.Zone} {definition definition' : Definition}
    (hbuild : (⟨table, zone, fields⟩ : Builder).build = .ok definition)
    (hbuild' : (⟨table, zone, extended⟩ : Builder).build = .ok definition') {name : String}
    (hname : ∀ field ∈ inserted, name ∉ field.names) :
    definition'.field? name = definition.field? name := by
  obtain ⟨moved, -, hfields, hposition⟩ := hinserts.exists_moved hbuild hbuild'
  unfold Definition.field?
  rw [hposition name hname, Option.bind_map]
  congr 1
  funext position
  exact hfields position

/-- With explicit fields inserted, a tree that does not name them is compiled as without them. -/
theorem compile_eq (hinserts : InsertsExplicit inserted fields extended) {table : String}
    {zone : Calendar.Zone} {definition definition' : Definition}
    (hbuild : (⟨table, zone, fields⟩ : Builder).build = .ok definition)
    (hbuild' : (⟨table, zone, extended⟩ : Builder).build = .ok definition') {node : Node}
    (hnames : ∀ field ∈ inserted, ∀ name ∈ field.names, ¬node.Names name) (depth : Nat) :
    node.compile definition.registry depth = node.compile definition'.registry depth := by
  have hmakes := Builder.makes_of_build hbuild
  have hmakes' := Builder.makes_of_build hbuild'
  have hzone : definition.zone = definition'.zone := hmakes.zone.trans hmakes'.zone.symm
  apply Node.compile_congr
  case hdefaults =>
    funext _ value given
    show definition.defaultFields value given = definition'.defaultFields value given
    unfold Definition.defaultFields
    rw [hmakes.fields, hmakes'.fields, hzone]
    refine (hinserts.filter_eq table fun field hkept => ?_).symm
    simp only [Bool.and_eq_true, Bool.not_eq_true'] at hkept
    exact hkept.1
  case hzone => exact hzone
  case hnamed =>
    intro name hname _
    exact (hinserts.field?_eq hbuild hbuild'
      fun field hmem hown => hnames field hmem name hown hname).symm

end InsertsExplicit

/-- Explicit fields make no difference to trees that do not name them: a renderer answers with the
same text or the same error, and binds the same values, wherever the fields are inserted. -/
theorem Renderer.compile_insertsExplicit (table : String) (zone : Calendar.Zone)
    (inserted fields extended : List Field) (hinserts : InsertsExplicit inserted fields extended)
    (definition definition' : Definition)
    (hbuild : (⟨table, zone, fields⟩ : Builder).build = .ok definition)
    (hbuild' : (⟨table, zone, extended⟩ : Builder).build = .ok definition') (node : Node)
    (hnames : ∀ field ∈ inserted, ∀ name ∈ field.names, ¬node.Names name)
    (params : List BindValue) (lookups : Nat) :
    ((⟨definition.registry, params, lookups⟩ : Renderer).compile node).1 =
        ((⟨definition'.registry, params, lookups⟩ : Renderer).compile node).1 ∧
      ((⟨definition.registry, params, lookups⟩ : Renderer).compile node).2.params =
        ((⟨definition'.registry, params, lookups⟩ : Renderer).compile node).2.params := by
  unfold compile takeFragment take
  rw [hinserts.compile_eq hbuild hbuild' hnames 0]
  exact ⟨rfl, rfl⟩

/-- A word and a comparison give the same as before, although an explicit text and an explicit time
stand before the field and behind it. -/
theorem Renderer.compile_insertsExplicit_people : ∃ extended : Definition,
    (⟨"people", .utc, [{ name := "nick", type := .string, onlyExplicit := true },
      { name := "name", type := .string },
      { name := "left_at", type := .timestamp, onlyExplicit := true, aliases := ["left"] }]⟩ :
        Builder).build = .ok extended ∧
    ((fresh extended.registry).compile
      (.logical .and [.leaf "Ann", .comparison "name" .ne "left"])).1 =
      .ok (some "((people.name LIKE ?) AND people.name <> ?)") := by
  have hinserts : InsertsExplicit
      [{ name := "nick", type := .string, onlyExplicit := true },
        { name := "left_at", type := .timestamp, onlyExplicit := true, aliases := ["left"] }]
      [{ name := "name", type := .string }] _ :=
    .insert rfl (.keep _ (.insert rfl .nil))
  have hnames : ∀ field ∈ ([{ name := "nick", type := .string, onlyExplicit := true },
      { name := "left_at", type := .timestamp, onlyExplicit := true, aliases := ["left"] }] :
        List Field), ∀ name ∈ field.names,
      ¬(Node.logical .and [.leaf "Ann", .comparison "name" .ne "left"]).Names name := by
    intro field hfield name hname hnamed
    have hother : name ≠ "name" := by
      rintro rfl
      revert field
      decide
    cases hnamed with
    | member hmem hin =>
        simp only [List.mem_cons, List.not_mem_nil, or_false] at hmem
        rcases hmem with rfl | rfl
        · cases hin
        · cases hin with
          | comparison => exact hother rfl
          | operand hmem hin =>
              simp only [List.mem_cons, List.not_mem_nil, or_false] at hmem
              rcases hmem with rfl | rfl <;> cases hin
  have hbuild : (⟨"people", .utc, [{ name := "nick", type := .string, onlyExplicit := true },
      { name := "name", type := .string },
      { name := "left_at", type := .timestamp, onlyExplicit := true, aliases := ["left"] }]⟩ :
        Builder).build = .ok ⟨"people", .utc,
          [{ name := "nick", type := .string, onlyExplicit := true, table := some "people" },
            { name := "name", type := .string, table := some "people" },
            { name := "left_at", type := .timestamp, onlyExplicit := true, aliases := ["left"],
              table := some "people" }],
          ⟨[("left", 2), ("left_at", 2), ("name", 1), ("nick", 0)]⟩⟩ :=
    rfl
  obtain ⟨hsame, -⟩ := compile_insertsExplicit "people" .utc _ _ _ hinserts
    ⟨"people", .utc, [{ name := "name", type := .string, table := some "people" }],
      ⟨[("name", 0)]⟩⟩ _ rfl hbuild _ hnames [] 0
  exact ⟨_, hbuild, hsame.symm⟩

end FieldSearch
