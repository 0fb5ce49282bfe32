import Atoms.Core.Timeline

open atoms.errors atoms.fingerprint atoms.effects atoms.paths atoms.spec checked

namespace atoms.compiler

/-- `_PathTrieNode`: the children by component in insertion order, the surface
entry and the creating effect of the path that ends here. -/
inductive PathTrieNode
  | node (children : List (String × PathTrieNode)) (surface : Option (RelPath × PathState))
      (creator : Option (RelPath × Nat))

namespace PathTrieNode

def empty : PathTrieNode := .node [] none none

def children : PathTrieNode → List (String × PathTrieNode)
  | .node children _ _ => children

def creator : PathTrieNode → Option (RelPath × Nat)
  | .node _ _ creator => creator

def with_surface (entry : RelPath × PathState) : PathTrieNode → PathTrieNode
  | .node children _ creator => .node children (some entry) creator

def with_creator (entry : RelPath × Nat) : PathTrieNode → PathTrieNode
  | .node children surface _ => .node children surface (some entry)

/-- `node.children.get(component)` -/
def child (self : PathTrieNode) (component : String) : Option PathTrieNode :=
  self.children.lookup component

/-- Replace the child under `component` in place, or append it. -/
def put_child (component : String) (child : PathTrieNode) :
    List (String × PathTrieNode) → List (String × PathTrieNode)
  | [] => [(component, child)]
  | (name, other) :: rest =>
    if name = component then (name, child) :: rest else (name, other) :: put_child component child rest

/-- Walk down `path`, adding the nodes that are missing, and apply `update` at its end. -/
def insert_path (update : PathTrieNode → PathTrieNode) : PathTrieNode → List String → PathTrieNode
  | self, [] => update self
  | .node children surface creator, component :: rest =>
    let child := (children.lookup component).getD empty
    .node (put_child component (insert_path update child rest) children) surface creator

end PathTrieNode

variable [UnicodeData]

mutual

/-- Visit a node under the nearest declared ancestor that cannot contain entries. -/
def require_surface_tree (label : String) (constraint : Option (RelPath × PathState)) :
    PathTrieNode → Except AtomsError Unit
  | .node children surface _ => do
    match surface, constraint with
    | some (path, state), some (ancestor_path, ancestor_state) =>
      require (state = ABSENT) (.SpecValidationError (label ++ " declares " ++ py_repr path ++ " beneath " ++
        py_repr ancestor_path ++ ", which is " ++ ancestor_state.type_name ++
        " and so cannot contain entries; " ++ py_repr path ++ " must be declared absent"))
    | _, _ => .ok ()
    let next_constraint := match surface with
      | none => constraint
      | some (path, state) => match state with
        | .DirectoryState _ => none
        | _ => some (path, state)
    require_surface_children label next_constraint children

/-- The stack of the source pops the child that was pushed last first. -/
def require_surface_children (label : String) (constraint : Option (RelPath × PathState)) :
    List (String × PathTrieNode) → Except AtomsError Unit
  | [] => .ok ()
  | (_, child) :: rest => do
    require_surface_children label constraint rest
    require_surface_tree label constraint child

end

def phase12_surface_tree (surface : List SurfaceEntry) (label : String) : Except AtomsError Unit :=
  require_surface_tree label none <| surface.foldl (fun root entry =>
    root.insert_path (.with_surface (entry.path, entry.state)) (components entry.path)) .empty

/-- Walk the ancestors of an occurrence, refusing a creator that comes at or after `index`. -/
def require_created_before (effect : Effect) (index : Nat) (path : RelPath) :
    PathTrieNode → List String → Except AtomsError Unit
  | _, [] => .ok ()
  | self, component :: rest =>
    match self.child component with
    | none => .ok ()
    | some child => do
      match child.creator with
      | none => .ok ()
      | some (creator_path, creator_index) =>
        require (creator_index < index) (.SpecValidationError ("effect " ++ py_repr effect.effect_id ++ " touches " ++
          py_repr path ++ " beneath " ++ py_repr creator_path ++ ", which this transaction creates later; outer " ++
          "directory creation must come before every affected descendant"))
      require_created_before effect index path child rest

def phase13_ancestor_ordering (effects : List Effect) : Except AtomsError Unit :=
  let root := effects.zipIdx.foldl (fun root (effect, index) => match effect with
    | .CreateDirectory e => root.insert_path (.with_creator (e.path, index)) (components e.path)
    | _ => root) PathTrieNode.empty
  effects.zipIdx.forM fun (effect, index) =>
    (occurrences effect).forM fun occurrence =>
      require_created_before effect index occurrence.path root (components occurrence.path).dropLast

end atoms.compiler
