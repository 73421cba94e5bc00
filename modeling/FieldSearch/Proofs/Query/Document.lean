import FieldSearch.Proofs.Json.RoundTrip
import FieldSearch.Query.Document

/-! Trees and the documents that hold them. Every tree is read back from its document, in whatever
order the members of objects stand: what is read under a key does not depend on what stands before
or behind, as long as the key stands once. The kind is taken out of the members wherever it stands,
from the outermost object while it is read and from those in it afterwards; the tree is made of what
is left. A document whose tree goes too deep for it is malformed, and no other tree is read from it.
-/

namespace FieldSearch.Node

open Json (DataFault Gathers ReaderBelow Reordered Settles)

variable {α : Type}

/-! ### Members in any order -/

/-- What is found for a key: what has been found before, and what the members with this key are
read as. -/
def foundFor (key : String) (read : Part → Except DataFault α) (before : Option α)
    (parts : List (String × Part)) : List (Except DataFault α) :=
  before.toList.map .ok ++ (parts.filter fun part => part.1 = key).map fun part => read part.2

section Found

variable {key : String} {read : Part → Except DataFault α} {before : Option α} {a : α}
  {part : Part} {parts parts' : List (String × Part)}

/-- A member with the key is the one that is found. -/
theorem foundFor_cons_self (hfound : foundFor key read before ((key, part) :: parts) = [.ok a]) :
    before = none ∧ read part = .ok a ∧ foundFor key read (some a) parts = [.ok a] := by
  cases before with
  | none => simpa [foundFor] using hfound
  | some b => simp [foundFor] at hfound

theorem foundFor_cons_ne {other : String} (hne : other ≠ key) :
    foundFor key read before ((other, part) :: parts) = foundFor key read before parts := by
  simp [foundFor, hne]

theorem foundFor_nil (hfound : foundFor key read before [] = [.ok a]) : before = some a := by
  cases before with
  | none => simp [foundFor] at hfound
  | some b => simpa [foundFor] using hfound

/-- The order of the members does not matter. -/
theorem foundFor_perm (hperm : parts.Perm parts')
    (hfound : foundFor key read none parts = [.ok a]) :
    foundFor key read none parts' = [.ok a] := by
  have hsame := (hperm.filter fun part => part.1 = key).map fun part => read part.2
  simp only [foundFor, Option.toList_none, List.map_nil, List.nil_append] at hfound ⊢
  rw [hfound] at hsame
  exact (List.singleton_perm.mp hsame).symm

end Found

variable {parts : List (String × Part)}

theorem leafOf_of_found {before : Option String} {value : String}
    (hvalue : foundFor "value" (fun part => stringOf part.json) before parts = [.ok value]) :
    leafOf before parts = .ok (.leaf value) := by
  induction parts generalizing before with
  | nil =>
      obtain rfl := foundFor_nil hvalue
      rfl
  | cons member parts ih =>
      obtain ⟨key, part⟩ := member
      by_cases hkey : key = "value"
      · subst hkey
        obtain ⟨rfl, hpart, hmore⟩ := foundFor_cons_self hvalue
        simp [leafOf, hpart, ih hmore]
      · rw [foundFor_cons_ne hkey] at hvalue
        simp [leafOf, hkey, ih hvalue]

theorem branchOf_of_found {readOp : Json → Except DataFault α} {build : α → List Node → Node}
    {op? : Option α} {operands? : Option (List Node)} {op : α} {operands : List Node}
    (hop : foundFor "operator" (fun part => readOp part.json) op? parts = [.ok op])
    (hoperands : foundFor "children" Part.operands operands? parts = [.ok operands]) :
    branchOf readOp build op? operands? parts = .ok (build op operands) := by
  induction parts generalizing op? operands? with
  | nil =>
      obtain rfl := foundFor_nil hop
      obtain rfl := foundFor_nil hoperands
      rfl
  | cons member parts ih =>
      obtain ⟨key, part⟩ := member
      by_cases hkey : key = "operator"
      · subst hkey
        obtain ⟨rfl, hpart, hmore⟩ := foundFor_cons_self hop
        rw [foundFor_cons_ne (by decide)] at hoperands
        simp [branchOf, hpart, ih hmore hoperands]
      · rw [foundFor_cons_ne hkey] at hop
        by_cases hchildren : key = "children"
        · subst hchildren
          obtain ⟨rfl, hpart, hmore⟩ := foundFor_cons_self hoperands
          simp [branchOf, hpart, ih hop hmore]
        · rw [foundFor_cons_ne hchildren] at hoperands
          simp [branchOf, hkey, hchildren, ih hop hoperands]

/-! ### From trees to documents and back -/

theorem partsOf_eq_map (members : List (String × Json)) :
    partsOf members = members.map fun member => (member.1, ⟨member.2, operandsOf member.2⟩) := by
  induction members with
  | nil => simp [partsOf]
  | cons member members ih => simp [partsOf, ih]

theorem partsOf_perm {members members' : List (String × Json)} (hperm : members.Perm members') :
    (partsOf members).Perm (partsOf members') := by
  rw [partsOf_eq_map, partsOf_eq_map]
  exact hperm.map _

theorem toJsons_eq_map (nodes : List Node) : toJsons nodes = nodes.map toJson := by
  induction nodes with
  | nil => simp [toJsons]
  | cons node nodes ih => simp [toJsons, ih]

theorem kindNamed_name (kind : Kind) : kindNamed kind.name = .ok kind := by
  cases kind <;> rfl

theorem operatorOf_name (op : Operator) : operatorOf (.string op.name) = .ok op := by
  cases op <;> rfl

theorem connectiveOf_name (op : Connective) : connectiveOf (.string op.name) = .ok op := by
  cases op <;> rfl

/-- Without the key of the kind, all members are left. -/
theorem splitKind_of_ne {kind : Kind} {members : List (String × Json)}
    (hmembers : ∀ member ∈ members, member.1 ≠ "node") :
    splitKind (some kind) (partsOf members) = .ok (kind, partsOf members) := by
  induction members with
  | nil => rfl
  | cons member members ih =>
      obtain ⟨key, value⟩ := member
      obtain ⟨hkey, hmore⟩ := List.forall_mem_cons.mp hmembers
      simp [partsOf, splitKind, hkey, ih hmore]

/-- The kind is found wherever it stands, and the other members are left. -/
theorem splitKind_of_kind (kind : Kind) {left right : List (String × Json)}
    (hmembers : ∀ member ∈ left ++ right, member.1 ≠ "node") :
    splitKind none (partsOf (left ++ ("node", .string kind.name) :: right)) =
      .ok (kind, partsOf (left ++ right)) := by
  induction left with
  | nil =>
      simpa [partsOf, splitKind, kindOf, kindNamed_name] using splitKind_of_ne hmembers
  | cons member left ih =>
      obtain ⟨key, value⟩ := member
      obtain ⟨hkey, hmore⟩ := List.forall_mem_cons.mp hmembers
      simp [partsOf, splitKind, hkey, ih hmore]

/-- An object that holds a tree: its kind somewhere, and around it the parts of which the tree is
made. -/
inductive Holds (node : Node) : Json → Prop
  | object {kind : Kind} {left right : List (String × Json)} :
      (∀ member ∈ left ++ right, member.1 ≠ "node") →
      ofKind kind (partsOf (left ++ right)) = .ok node →
      Holds node (.object (left ++ ("node", .string kind.name) :: right))

theorem Holds.ofJson_eq {node : Node} {json : Json} (hholds : Holds node json) :
    ofJson json = .ok node := by
  cases hholds with
  | @object kind left right hmembers hnode =>
      rw [ofJson, ofMembers, splitKind_of_kind kind hmembers]
      exact hnode

/-- Members in any order hold a tree, if the kind is among them and the tree is made of the others in
any order. -/
theorem holds_of_perm {node : Node} (kind : Kind) {others members : List (String × Json)}
    (hperm : (("node", .string kind.name) :: others).Perm members)
    (hothers : ∀ member ∈ others, member.1 ≠ "node")
    (hnode : ∀ parts, (partsOf others).Perm parts → ofKind kind parts = .ok node) :
    Holds node (.object members) := by
  obtain ⟨left, right, rfl⟩ := List.append_of_mem (hperm.subset List.mem_cons_self)
  have hrest : others.Perm (left ++ right) := (hperm.trans List.perm_middle).cons_inv
  exact .object (fun member hmem => hothers member (hrest.mem_iff.mpr hmem))
    (hnode _ (partsOf_perm hrest))

/-- The document of a leaf with its members in any order. -/
theorem holds_leaf {value : String} {json : Json} (hsame : Reordered (leaf value).toJson json) :
    Holds (leaf value) json := by
  rw [toJson] at hsame
  obtain ⟨middle, members, rfl, hperm, hpairs⟩ := hsame.exists_of_object
  simp only [List.forall₂_cons_left_iff, List.forall₂_nil_left_iff] at hpairs
  obtain ⟨⟨_, kind⟩, _, ⟨rfl, hkind⟩, ⟨⟨_, text⟩, _, ⟨rfl, htext⟩, rfl, rfl⟩, rfl⟩ := hpairs
  cases hkind
  cases htext
  refine holds_of_perm .leaf hperm (by simp) fun parts hparts => ?_
  exact leafOf_of_found (foundFor_perm hparts rfl)

/-- A branch whose members stand in another order has a kind, a name and the list of its operands.
-/
theorem exists_items_of_branch {kind name : String} {operands : List Node} {json : Json}
    (hsame : Reordered (.object [("node", .string kind), ("operator", .string name),
      ("children", .array (toJsons operands))]) json) :
    ∃ items members, json = .object members ∧
      List.Forall₂ Reordered (toJsons operands) items ∧
      [("node", .string kind), ("operator", .string name), ("children", .array items)].Perm
        members := by
  obtain ⟨middle, members, rfl, hperm, hpairs⟩ := hsame.exists_of_object
  simp only [List.forall₂_cons_left_iff, List.forall₂_nil_left_iff] at hpairs
  obtain ⟨⟨_, kind⟩, _, ⟨rfl, hkind⟩, ⟨⟨_, text⟩, _, ⟨rfl, htext⟩, ⟨⟨_, list⟩, _, ⟨rfl, hlist⟩,
    rfl, rfl⟩, rfl⟩, rfl⟩ := hpairs
  cases hkind
  cases htext
  cases hlist with
  | array hitems => exact ⟨_, members, rfl, hitems, hperm⟩

theorem ofJsons_reordered {operands : List Node} {items : List Json}
    (hoperands : ∀ operand ∈ operands, ∀ json, Reordered operand.toJson json →
      Holds operand json)
    (hsame : List.Forall₂ Reordered (toJsons operands) items) : ofJsons items = .ok operands := by
  induction operands generalizing items with
  | nil =>
      cases hsame
      rfl
  | cons operand operands ih =>
      rw [toJsons] at hsame
      cases hsame with
      | cons hitem hitems =>
          rw [ofJsons, (hoperands operand (by simp) _ hitem).ofJson_eq]
          dsimp only
          rw [ih (fun operand hmem => hoperands operand (by simp [hmem])) hitems]

/-- The document of a branch with its members in any order. -/
theorem holds_branch (kind : Kind) (build : α → List Node → Node) {name : String}
    {operands : List Node} {op : α} {readOp : Json → Except DataFault α} {json : Json}
    (hkind : ∀ parts, ofKind kind parts = branchOf readOp build none none parts)
    (hop : readOp (.string name) = .ok op)
    (hoperands : ∀ operand ∈ operands, ∀ json, Reordered operand.toJson json → Holds operand json)
    (hsame : Reordered (.object [("node", .string kind.name), ("operator", .string name),
      ("children", .array (toJsons operands))]) json) :
    Holds (build op operands) json := by
  obtain ⟨items, members, rfl, hitems, hperm⟩ := exists_items_of_branch hsame
  refine holds_of_perm kind hperm (by simp) fun parts hparts => ?_
  rw [hkind]
  refine branchOf_of_found (foundFor_perm hparts ?_) (foundFor_perm hparts ?_)
  · simp [foundFor, partsOf, hop]
  · simp [foundFor, partsOf, operandsOf, ofJsons_reordered hoperands hitems]

/-- The document of a tree holds the tree, with the members of objects in any order. -/
theorem holds_reordered (node : Node) {json : Json} (hsame : Reordered node.toJson json) :
    Holds node json := by
  induction node using Node.induction generalizing json with
  | leaf value => exact holds_leaf hsame
  | operator op operands ih =>
      rw [toJson] at hsame
      exact holds_branch .operator Node.operator (fun _ => rfl) (operatorOf_name op)
        (fun operand hmem _ => ih operand hmem) hsame
  | logical op operands ih =>
      rw [toJson] at hsame
      exact holds_branch .logical Node.logical (fun _ => rfl) (connectiveOf_name op)
        (fun operand hmem _ => ih operand hmem) hsame

theorem branch_isPlain {kind name : String} {operands : List Node}
    (hoperands : ∀ operand ∈ operands, operand.toJson.IsPlain) :
    (Json.object [("node", .string kind), ("operator", .string name),
      ("children", .array (toJsons operands))]).IsPlain := by
  have hitems : ∀ item ∈ toJsons operands, item.IsPlain := by
    rw [toJsons_eq_map]
    simpa using hoperands
  refine .object ?_
  simp only [List.forall_mem_cons, List.not_mem_nil, false_implies, implies_true, and_true]
  exact ⟨.string, .string, .array hitems⟩

/-- There are no numbers in the document of a tree. -/
theorem toJson_isPlain (node : Node) : node.toJson.IsPlain := by
  induction node using Node.induction with
  | leaf value =>
      rw [toJson]
      refine .object ?_
      simp only [List.forall_mem_cons, List.not_mem_nil, false_implies, implies_true, and_true]
      exact ⟨.string, .string⟩
  | operator op operands ih =>
      rw [toJson]
      exact branch_isPlain ih
  | logical op operands ih =>
      rw [toJson]
      exact branch_isPlain ih

/-! ### Reading from the front -/

/-- A string is read as the kind with its name, if there is one. -/
theorem readKind_written (name : String) (rest : List Char) :
    ∃ shorter, readKind (Json.writtenString name ++ rest) =
      match kindNamed name with
      | .ok kind => .ok (kind, ⟨rest, shorter⟩)
      | .error fault => .error (.data fault) := by
  obtain ⟨shorter, hread⟩ :=
    (Json.readStringFor_written "variant identifier" name rest).exists_ok trivial
  refine ⟨shorter, ?_⟩
  rw [readKind, hread]
  dsimp only
  cases kindNamed name <;> rfl

theorem foldl_keep (parts : List (String × Json)) (kind : Option Kind)
    (before : List (String × Json)) :
    parts.foldl Opened.keep ⟨kind, before⟩ = ⟨kind, parts.reverse ++ before⟩ := by
  induction parts generalizing before with
  | nil => rfl
  | cons member parts ih => simp [Opened.keep, ih]

section Gathered

variable {spacing : Json.Spacing}

/-- Members without the key of the kind are kept. -/
theorem gathers_others (hspacing : spacing.IsNeutral) {parts : List (String × Json)}
    (hparts : ∀ member ∈ parts, member.1 ≠ "node") (hplain : ∀ member ∈ parts, member.2.IsPlain)
    (kind : Option Kind) (before : List (String × Json)) (n depth : Nat) :
    Gathers (Opened.key (n := n)) spacing depth
      (fun value => value.depth ≤ Json.greatestDepth - 1) ⟨kind, before⟩ parts
      ⟨kind, parts.reverse ++ before⟩ := by
  rw [← foldl_keep]
  exact Json.gathers_kept Opened.key Opened.keep
    (fun _ member hmem => if_neg (hparts member hmem))
    (fun member hmem rest => (hplain member hmem).readValue_written hspacing _ depth rest) _

/-- The members of an object that holds a tree are gathered, the kind among them. -/
theorem gathers_opened (hspacing : spacing.IsNeutral) (kind : Kind)
    {left right : List (String × Json)} (hmembers : ∀ member ∈ left ++ right, member.1 ≠ "node")
    (hplain : ∀ member ∈ left ++ right, member.2.IsPlain) (n depth : Nat) :
    Gathers (Opened.key (n := n)) spacing depth
      (fun value => value.depth ≤ Json.greatestDepth - 1) {}
      (left ++ ("node", .string kind.name) :: right) ⟨some kind, (left ++ right).reverse⟩ := by
  obtain ⟨hleftMembers, hrightMembers⟩ := List.forall_mem_append.mp hmembers
  obtain ⟨hleftPlain, hrightPlain⟩ := List.forall_mem_append.mp hplain
  have hleft := gathers_others hspacing hleftMembers hleftPlain none [] n depth
  have hright := gathers_others hspacing hrightMembers hrightPlain (some kind) left.reverse n depth
  rw [List.append_nil] at hleft
  rw [List.reverse_append]
  refine hleft.append (.cons rfl (fun rest _ => ?_) hright)
  obtain ⟨shorter, hread⟩ := readKind_written kind.name rest
  rw [Json.write, hread, kindNamed_name]
  exact .taken ⟨rest, shorter⟩ (Nat.zero_le _) rfl rfl

end Gathered

/-- A tree is read from an object that holds it, unless that is nested too deeply. -/
theorem Holds.readTree_written {spacing : Json.Spacing} {node : Node} {json : Json}
    (hholds : Holds node json) (hplain : json.IsPlain) (hspacing : spacing.IsNeutral)
    (rest : List Char) :
    Settles (json.depth ≤ Json.greatestDepth) node rest
      (readTree (Json.write spacing 0 json ++ rest)) := by
  cases hholds with
  | @object kind left right hmembers hnode =>
      cases hplain with
      | object hplain =>
          obtain ⟨s, hs⟩ := Json.exists_write_object spacing 0 _ rest
          have hothers : ∀ member ∈ left ++ right, member.2.IsPlain := by
            rw [List.forall_mem_append, List.forall_mem_cons] at hplain
            exact List.forall_mem_append.mpr ⟨hplain.1, hplain.2.2⟩
          have hread := Json.members_written Json.greatestDepth hspacing hplain
            (gathers_opened hspacing kind hmembers hothers _ _) hs (length_lt_cons '\x7b' s)
          rw [hs, readTree, if_pos rfl]
          refine (hread.into (fun hread => by rw [hread]) fun shorter hread => ?_).congr ?_
          · rw [hread]
            simp only [Opened.finish, List.reverse_reverse, hnode]
            exact ⟨_, rfl, rfl⟩
          · rw [← Json.depthOfMembers_le_iff, Json.depth, Json.greatestDepth]
            omega

/-- A tree is read from the text of an object that holds it, and too deep a text is malformed. -/
theorem Holds.ofText_written {spacing : Json.Spacing} {node : Node} {json : Json}
    (hholds : Holds node json) (hplain : json.IsPlain) (hspacing : spacing.IsNeutral)
    {text : String} (htext : text.toList = Json.write spacing 0 json) :
    (json.depth ≤ Json.greatestDepth → ofText text = .ok node) ∧
      (¬json.depth ≤ Json.greatestDepth → ofText text = .error .malformed) := by
  have hread := hholds.readTree_written hplain hspacing []
  rw [List.append_nil] at hread
  exact Json.document_written hplain hread htext

/-- A tree is read back from the text of its document, on one line or indented and with the members
of objects in any order. If the document is nested too deeply, it is malformed, and no tree is read
from it. -/
theorem ofText_reordered (node : Node) :
    Reordered node.toJson node.toJson ∧
    ∀ json, Reordered node.toJson json →
      (node.toJson.depth ≤ 127 →
        ofText json.compact = .ok node ∧ ofText json.pretty = .ok node) ∧
      (127 < node.toJson.depth →
        ofText json.compact = .error .malformed ∧ ofText json.pretty = .error .malformed) := by
  refine ⟨node.toJson_isPlain.reordered_self, fun json hsame => ?_⟩
  obtain ⟨hplain, hdepth⟩ := node.toJson_isPlain.of_reordered hsame
  have hholds := node.holds_reordered hsame
  obtain ⟨hline, hlineDeep⟩ :=
    hholds.ofText_written hplain Json.Spacing.compact_isNeutral json.toList_compact
  obtain ⟨hlines, hlinesDeep⟩ :=
    hholds.ofText_written hplain Json.Spacing.indented_isNeutral json.toList_pretty
  constructor
  · intro hfits
    have hfits := (hdepth Json.greatestDepth).mp hfits
    exact ⟨hline hfits, hlines hfits⟩
  · intro hdeep
    have hdeep := (hdepth Json.greatestDepth).not.mp (Nat.not_le.mpr hdeep)
    exact ⟨hlineDeep hdeep, hlinesDeep hdeep⟩

/-- Every negation takes two levels: its object and the list in it. -/
theorem depth_repeat_not (n : Nat) (node : Node) :
    (Nat.repeat Node.not n node).toJson.depth = 2 * n + node.toJson.depth := by
  induction n with
  | zero => simp [Nat.repeat]
  | succ n ih =>
      rw [Nat.repeat, Node.not, toJson]
      simp only [toJsons, Json.depth, Json.depthOfMembers, Json.depthOfItems, ih]
      omega

/-- A tree that no query yields, from a document whose kinds stand last, and negations up to the
greatest depth and one beyond it. -/
theorem ofText_reordered_negations :
    ofText ("\x7b\"children\":[\x7b\"value\":\"\\u0001\",\"node\":\"leaf\"\x7d],"
      ++ "\"operator\":\"or\",\"node\":\"logical_operator\"\x7d") =
        .ok (.logical .or [.leaf "\x01"]) ∧
    ofText (Nat.repeat Node.not 63 (.leaf "")).toJson.pretty =
      .ok (Nat.repeat Node.not 63 (.leaf "")) ∧
    ofText (Nat.repeat Node.not 64 (.leaf "")).toJson.compact = .error .malformed := by
  have hleaf : Reordered (leaf "\x01").toJson
      (.object [("value", .string "\x01"), ("node", .string "leaf")]) :=
    .object rfl (.cons .string (.cons .string .nil)) (.swap _ _ _)
  have hreverse := List.reverse_perm [("node", Json.string "logical_operator"),
    ("operator", .string "or"),
    ("children", .array [.object [("value", .string "\x01"), ("node", .string "leaf")]])]
  have hor : Reordered (logical .or [leaf "\x01"]).toJson _ :=
    .object (by rfl)
      (by exact .cons .string (.cons .string (.cons (.array (.cons hleaf .nil)) .nil)))
      hreverse.symm
  obtain ⟨-, hany⟩ := ofText_reordered (.logical .or [.leaf "\x01"])
  obtain ⟨hself, hdeepest⟩ := ofText_reordered (Nat.repeat Node.not 63 (.leaf ""))
  obtain ⟨hself', hdeeper⟩ := ofText_reordered (Nat.repeat Node.not 64 (.leaf ""))
  have hleafDepth : (leaf "").toJson.depth = 1 := rfl
  rw [depth_repeat_not, hleafDepth] at hdeepest hdeeper
  exact ⟨((hany _ hor).1 (by decide)).1, ((hdeepest _ hself).1 (by decide)).2,
    ((hdeeper _ hself').2 (by decide)).1⟩

/-! ### What is reported first -/

section Reported

variable {kind : Kind} {fault : DataFault} {text : String} {rest : List Char}

/-- A kind that there is not is reported as soon as it is met, whatever stands behind it. -/
theorem ofText_of_unknown_kind {name : String} (hname : kindNamed name = .error fault)
    (htext : text.toList =
      '\x7b' :: (Json.writtenString "node" ++ ':' :: (Json.writtenString name ++ rest))) :
    ofText text = .error (.data fault) := by
  obtain ⟨_, hread⟩ := readKind_written name rest
  rw [hname] at hread
  have hkind {n : Nat} (h : (Json.writtenString name ++ rest).length < n) :
      (readKind (Json.writtenString name ++ rest)).map
        (fun (kind, rest) => ((⟨some kind, []⟩ : Opened), rest)) = .error (.data fault) := by
    rw [hread]
    rfl
  have hskip : Json.skipBlanks text.toList =
      '\x7b' :: (Json.writtenString "node" ++ ':' :: (Json.writtenString name ++ rest)) := by
    rw [htext]
    rfl
  refine Json.document_eq_error hskip ?_
  rw [readTree, if_pos rfl,
    Json.members_eq_error Json.greatestDepth Opened.key {} "node" rfl rfl hkind rfl]

/-- Parts of which no tree is made are reported when the object is closed, whatever stands behind it.
-/
theorem ofText_of_unfit_parts {left right : List (String × Json)}
    (hmembers : ∀ member ∈ left ++ right, member.1 ≠ "node")
    (hparts : ∀ member ∈ left ++ right,
      member.2.IsPlain ∧ member.2.depth ≤ Json.greatestDepth - 1)
    (hunfit : ofKind kind (partsOf (left ++ right)) = .error fault)
    (htext : text.toList = Json.write .compact 0
      (.object (left ++ ("node", .string kind.name) :: right)) ++ rest) :
    ofText text = .error (.data fault) := by
  have hall : ∀ member ∈ left ++ ("node", .string kind.name) :: right,
      member.2.IsPlain ∧ member.2.depth ≤ Json.greatestDepth - 1 := by
    rw [List.forall_mem_append, List.forall_mem_cons]
    obtain ⟨hleft, hright⟩ := List.forall_mem_append.mp hparts
    exact ⟨hleft, ⟨.string, Nat.zero_le _⟩, hright⟩
  obtain ⟨s, hs⟩ := Json.exists_write_object .compact 0
    (left ++ ("node", .string kind.name) :: right) rest
  have hgathers := gathers_opened Json.Spacing.compact_isNeutral kind hmembers
    (fun member hmem => (hparts member hmem).1) ('\x7b' :: s).length 1
  obtain ⟨_, hread⟩ := (Json.members_written Json.greatestDepth Json.Spacing.compact_isNeutral
    (fun member hmem => (hall member hmem).1) hgathers hs (length_lt_cons '\x7b' s)).exists_ok
      fun member hmem => (hall member hmem).2
  have hskip : Json.skipBlanks text.toList = '\x7b' :: s := by
    rw [htext, hs]
    rfl
  refine Json.document_eq_error hskip ?_
  rw [readTree, if_pos rfl, hread]
  simp only [Opened.finish, List.reverse_reverse, hunfit]

end Reported

end FieldSearch.Node
