import SelectPlan.Data.Name

/-!
Join trees.  A join tree is nested the way the response is: its leaves are the joins to run once
the rows have arrived, and the names on the way to a leaf are the response fields that lead there.
-/

namespace SelectPlan

variable {R S : Type}

/-- The response field that holds a join value. -/
inductive JoinColumn where
  /-- A field that the query selects itself. -/
  | selected (name : FieldName)
  /-- A field that was added for the join, and is removed from the response after it. -/
  | phantom (name : FieldName)
deriving DecidableEq

namespace JoinColumn

/-- The name of the field. -/
def name : JoinColumn → FieldName
  | selected name | phantom name => name

/-- Whether the field was added for the join. -/
def isPhantom : JoinColumn → Bool
  | selected _ => false
  | phantom _ => true

instance : HasJson JoinColumn :=
  ⟨fun
    | selected name => .tagged "Selected" (json name)
    | phantom name => .tagged "Phantom" (json name)⟩

end JoinColumn

/-- A join with a remote target: for each join field the response field that holds its value. -/
structure RemoteJoin (R : Type) where
  columns : OrderedMap FieldName JoinColumn
  target : R

namespace RemoteJoin

/-- Applies a function to the target. -/
def map (f : R → S) (join : RemoteJoin R) : RemoteJoin S :=
  { join with target := f join.target }

instance [HasJson R] : HasJson (RemoteJoin R) :=
  ⟨fun join =>
    .object [("join_columns", json join.columns), ("relationship", json join.target)]⟩

end RemoteJoin

/-- The nodes of one level of a join tree, under distinct names. -/
inductive JoinNodes (R : Type) : List FieldName → Type where
  | nil : JoinNodes R []
  | leaf {names : List FieldName} (name : FieldName) (fresh : name ∉ names) (join : RemoteJoin R)
      (rest : JoinNodes R names) : JoinNodes R (name :: names)
  | tree {names below : List FieldName} (name : FieldName) (fresh : name ∉ names)
      (subtree : JoinNodes R below) (rest : JoinNodes R names) : JoinNodes R (name :: names)

namespace JoinNodes

/-- The joins of a tree, each with the path that leads to it. -/
def leaves : {names : List FieldName} → JoinNodes R names → List (List FieldName × RemoteJoin R)
  | _, nil => []
  | _, leaf name _ join rest => ([name], join) :: rest.leaves
  | _, tree name _ subtree rest =>
      (subtree.leaves.map fun (path, join) => (name :: path, join)) ++ rest.leaves

/-- Applies a function to every target. -/
def map (f : R → S) : {names : List FieldName} → JoinNodes R names → JoinNodes S names
  | _, nil => nil
  | _, leaf name fresh join rest => leaf name fresh (join.map f) (rest.map f)
  | _, tree name fresh subtree rest => tree name fresh (subtree.map f) (rest.map f)

/-- Adds a leaf at the end. -/
def push {name : FieldName} (join : RemoteJoin R) :
    {names : List FieldName} → JoinNodes R names → name ∉ names → JoinNodes R (names ++ [name])
  | _, nil, _ => leaf name (by simp) join nil
  | _, leaf other fresh first rest, absent =>
      leaf other (by simp_all [eq_comm]) first (rest.push join (by simp_all))
  | _, tree other fresh subtree rest, absent =>
      tree other (by simp_all [eq_comm]) subtree (rest.push join (by simp_all))

/-- The document form of the nodes of a level. -/
def members [HasJson R] :
    {names : List FieldName} → JoinNodes R names → List (String × Json)
  | _, nil => []
  | _, leaf name _ join rest => (name.text, .tagged "Leaf" (json join)) :: rest.members
  | _, tree name _ subtree rest =>
      (name.text, .tagged "Tree" (.object subtree.members)) :: rest.members

end JoinNodes

/-- A join tree. -/
structure JoinTree (R : Type) where
  {names : List FieldName}
  nodes : JoinNodes R names

namespace JoinTree

/-- The tree without joins. -/
def empty : JoinTree R :=
  ⟨.nil⟩

/-- Whether a tree has no nodes. -/
def isEmpty (tree : JoinTree R) : Bool :=
  tree.names.isEmpty

/-- The joins of a tree, each with the path of response fields that leads to it. -/
def leaves (tree : JoinTree R) : List (List FieldName × RemoteJoin R) :=
  tree.nodes.leaves

/-- Applies a function to every target. -/
def map (f : R → S) (tree : JoinTree R) : JoinTree S :=
  ⟨tree.nodes.map f⟩

/-- Puts a subtree in front of a tree, unless the subtree is empty or its name is taken. -/
def withSubtree (tree : JoinTree R) (name : FieldName) (subtree : JoinTree R) : JoinTree R :=
  if subtree.isEmpty then tree
  else if fresh : name ∉ tree.names then ⟨.tree name fresh subtree.nodes tree.nodes⟩
  else tree

/-- Adds a leaf at the end of a tree, unless its name is taken. -/
def push (tree : JoinTree R) (name : FieldName) (join : RemoteJoin R) : JoinTree R :=
  if fresh : name ∉ tree.names then ⟨tree.nodes.push join fresh⟩ else tree

instance [HasJson R] : HasJson (JoinTree R) := ⟨fun tree => .object tree.nodes.members⟩

end JoinTree

end SelectPlan
