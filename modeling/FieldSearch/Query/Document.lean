import FieldSearch.Json.Record
import FieldSearch.Json.Writer
import FieldSearch.Query.Node

/-!
Query trees as documents. A node is an object with its kind under `node` and its parts under keys of
their own, in any order; or an array with the kind first and the parts in order. Keys that mean nothing
are passed over. Inside a list of operands the kind may also be given by its number.

A tree is read in two steps. While the outermost value is read from the text, its kind is looked at as
soon as it is met, and its other parts are kept as they are. What they amount to is asked when the value
has been closed, and before anything that stands behind it is looked at.
-/

namespace FieldSearch

namespace Node

open Json (DataFault Fault Reader ReaderBelow)

inductive Kind
  | leaf | operator | logical
  deriving DecidableEq, Repr

namespace Kind

def all : List Kind :=
  [leaf, operator, logical]

def name : Kind → String
  | leaf => "leaf"
  | operator => "operator"
  | logical => "logical_operator"

end Kind

mutual

def toJson : Node → Json
  | .leaf value => .object [("node", .string Kind.leaf.name), ("value", .string value)]
  | .operator op operands =>
    .object [("node", .string Kind.operator.name), ("operator", .string op.name),
      ("children", .array (toJsons operands))]
  | .logical op operands =>
    .object [("node", .string Kind.logical.name), ("operator", .string op.name),
      ("children", .array (toJsons operands))]

def toJsons : List Node → List Json
  | [] => []
  | node :: nodes => node.toJson :: toJsons nodes

end

def kindNamed (text : String) : Except DataFault Kind :=
  match Kind.all.find? fun kind => kind.name == text with
  | some kind => .ok kind
  | none => .error (.unknownVariant text (Kind.all.map Kind.name))

/-- The kind that a value inside a list of operands stands for. -/
def kindOf : Json → Except DataFault Kind
  | .string text => kindNamed text
  | .number (.integer (.ofNat n)) =>
    match Kind.all[n]? with
    | some kind => .ok kind
    | none => .error (.wrongIndex n Kind.all.length)
  | other => .error (.wrongType other.shape "variant identifier")

def stringOf : Json → Except DataFault String
  | .string text => .ok text
  | other => .error (.wrongType other.shape "a string")

/-- The variant that a value names: a string, or an object with the name as its only key and nothing
under it. -/
def variantOf {α : Type} (ofName? : String → Option α) (names : List String) :
    Json → Except DataFault α
  | .string text => named text
  | .object [(key, value)] =>
    match named key, value with
    | .ok a, .null | .ok a, .object [] => .ok a
    | .ok _, other => .error (.wrongType other.shape "unit")
    | .error fault, _ => .error fault
  | .object _ => .error .severalKeys
  | other => .error (.wrongType other.shape "string or map")
where
  named (text : String) : Except DataFault α :=
    match ofName? text with
    | some a => .ok a
    | none => .error (.unknownVariant text names)

def operatorOf : Json → Except DataFault Operator :=
  variantOf Operator.ofName? (Operator.all.map Operator.name)

def connectiveOf : Json → Except DataFault Connective :=
  variantOf Connective.ofName? (Connective.all.map Connective.name)

/-- A part of a node: the value, and the operands that it holds if it is a list of operands. -/
structure Part where
  json : Json
  operands : Except DataFault (List Node)

/-- The kind of a node, and the members that are left. -/
def splitKind :
    Option Kind → List (String × Part) → Except DataFault (Kind × List (String × Part))
  | some kind, [] => .ok (kind, [])
  | none, [] => .error (.missingKey "node")
  | found, (key, part) :: parts =>
    if key = "node" then
      if found.isSome then .error (.repeatedKey "node")
      else
        match kindOf part.json with
        | .error fault => .error fault
        | .ok kind => splitKind (some kind) parts
    else
      match splitKind found parts with
      | .error fault => .error fault
      | .ok (kind, others) => .ok (kind, (key, part) :: others)

/-- A leaf from its members. -/
def leafOf : Option String → List (String × Part) → Except DataFault Node
  | some value, [] => .ok (.leaf value)
  | none, [] => .error (.missingKey "value")
  | found, (key, part) :: parts =>
    if key = "value" then
      if found.isSome then .error (.repeatedKey "value")
      else
        match stringOf part.json with
        | .error fault => .error fault
        | .ok value => leafOf (some value) parts
    else leafOf found parts

/-- A node with an operator and operands, from its members. -/
def branchOf {α : Type} (readOp : Json → Except DataFault α) (build : α → List Node → Node) :
    Option α → Option (List Node) → List (String × Part) → Except DataFault Node
  | some op, some operands, [] => .ok (build op operands)
  | none, _, [] => .error (.missingKey "operator")
  | some _, none, [] => .error (.missingKey "children")
  | op, operands, (key, part) :: parts =>
    if key = "operator" then
      if op.isSome then .error (.repeatedKey "operator")
      else
        match readOp part.json with
        | .error fault => .error fault
        | .ok found => branchOf readOp build (some found) operands parts
    else if key = "children" then
      if operands.isSome then .error (.repeatedKey "children")
      else
        match part.operands with
        | .error fault => .error fault
        | .ok found => branchOf readOp build op (some found) parts
    else branchOf readOp build op operands parts

/-- A node of a kind from its other members. -/
def ofKind (kind : Kind) (parts : List (String × Part)) : Except DataFault Node :=
  match kind with
  | .leaf => leafOf none parts
  | .operator => branchOf operatorOf .operator none none parts
  | .logical => branchOf connectiveOf .logical none none parts

/-- A node from its members. -/
def ofMembers (parts : List (String × Part)) : Except DataFault Node :=
  match splitKind none parts with
  | .error fault => .error fault
  | .ok (kind, others) => ofKind kind others

/-- A leaf from the values of its parts. -/
def leafInOrder : List Part → Except DataFault Node
  | [] => .error (.wrongLength 0 "struct LeafNode with 1 element")
  | value :: more =>
    match stringOf value.json with
    | .error fault => .error fault
    | .ok text =>
      if more.isEmpty then .ok (.leaf text)
      else .error (.wrongLength (more.length + 1) "1 element in sequence")

/-- A node with an operator and operands, from the values of its parts. -/
def branchInOrder {α : Type} (type : String) (readOp : Json → Except DataFault α)
    (build : α → List Node → Node) : List Part → Except DataFault Node
  | [] => .error (.wrongLength 0 ("struct " ++ type ++ " with 2 elements"))
  | op :: more =>
    match readOp op.json, more with
    | .error fault, _ => .error fault
    | .ok _, [] => .error (.wrongLength 1 ("struct " ++ type ++ " with 2 elements"))
    | .ok found, operands :: more =>
      match operands.operands with
      | .error fault => .error fault
      | .ok nodes =>
        if more.isEmpty then .ok (build found nodes)
        else .error (.wrongLength (more.length + 2) "2 elements in sequence")

/-- A node of a kind from the values of its parts. -/
def ofKindInOrder (kind : Kind) (parts : List Part) : Except DataFault Node :=
  match kind with
  | .leaf => leafInOrder parts
  | .operator => branchInOrder "OperatorNode" operatorOf .operator parts
  | .logical => branchInOrder "LogicalOperatorNode" connectiveOf .logical parts

/-- A node from the values of its parts, the kind first. -/
def inOrder : List Part → Except DataFault Node
  | [] => .error (.missingKey "node")
  | first :: parts =>
    match kindOf first.json with
    | .error fault => .error fault
    | .ok kind => ofKindInOrder kind parts

mutual

/-- The tree that a value inside a list of operands holds. -/
def ofJson : Json → Except DataFault Node
  | .object members => ofMembers (partsOf members)
  | .array items => inOrder (partsInOrder items)
  | other => .error (.wrongType other.shape "internally tagged enum Node")

def operandsOf : Json → Except DataFault (List Node)
  | .array items => ofJsons items
  | other => .error (.wrongType other.shape "a sequence")

def ofJsons : List Json → Except DataFault (List Node)
  | [] => .ok []
  | item :: items =>
    match ofJson item with
    | .error fault => .error fault
    | .ok node =>
      match ofJsons items with
      | .error fault => .error fault
      | .ok nodes => .ok (node :: nodes)

def partsOf : List (String × Json) → List (String × Part)
  | [] => []
  | (key, value) :: members => (key, ⟨value, operandsOf value⟩) :: partsOf members

def partsInOrder : List Json → List Part
  | [] => []
  | item :: items => ⟨item, operandsOf item⟩ :: partsInOrder items

end

/-! ### The outermost value -/

/-- A value inside the outermost one, which is kept. -/
def readPart : Reader Json :=
  Json.readValue (.keep (Json.greatestDepth - 1))

def readKind : Reader Kind := fun s =>
  match Json.readStringFor "variant identifier" s with
  | .error fault => .error fault
  | .ok (text, rest) =>
    match kindNamed text with
    | .error fault => .error (.data fault)
    | .ok kind => .ok (kind, rest)

/-- What has been read of an object: the kind, if it has been met, and the other members, the last
one first. -/
structure Opened where
  kind : Option Kind := none
  others : List (String × Json) := []

namespace Opened

def keep (opened : Opened) (member : String × Json) : Opened :=
  { opened with others := member :: opened.others }

def key {n : Nat} (opened : Opened) (key : String) : Except Fault (ReaderBelow n Opened) :=
  if key = "node" then
    Json.once key opened.kind readKind fun kind => { opened with kind := some kind }
  else
    .ok fun t _ => (readPart t).map fun (value, rest) => (opened.keep (key, value), rest)

def finish (opened : Opened) : Except DataFault Node :=
  match opened.kind with
  | none => .error (.missingKey "node")
  | some kind => ofKind kind (partsOf opened.others.reverse)

end Opened

/-- The kind and the other parts in order, behind the bracket that opens an array. -/
def readInOrder (s : List Char) : Except Fault (Node × Rest s) :=
  match Json.next? s with
  | none => .error .truncated
  | some (c, _) =>
    if c = ']' then .error (.data (.missingKey "node"))
    else
      match Json.afterBlanks readKind s with
      | .error fault => .error fault
      | .ok (kind, following) =>
        match Json.moreElements (n := s.length) (fun t _ => readPart t) following.chars
            following.shorter with
        | .error fault => .error fault
        | .ok (items, last) =>
          match ofKindInOrder kind (partsInOrder items) with
          | .error fault => .error (.data fault)
          | .ok node => .ok (node, following.after last)

def readTree : Reader Node := fun s =>
  match s with
  | [] => .error .truncated
  | c :: r =>
    if c = '\x7b' then
      match Json.members (n := (c :: r).length) (.keep Json.greatestDepth) Opened.key {} r
          (length_lt_cons c r) with
      | .error fault => .error fault
      | .ok (opened, rest) =>
        match opened.finish with
        | .error fault => .error (.data fault)
        | .ok node => .ok (node, rest.behind)
    else if c = '[' then
      (readInOrder r).map fun (node, rest) => (node, rest.behind)
    else .error (Json.unexpected "internally tagged enum Node" (c :: r))

/-- The tree in the text of a document. -/
def ofText (text : String) : Except Fault Node :=
  Json.document readTree text

end Node

end FieldSearch
