import Mathlib.Data.List.Basic

/-!
Owns JSON trees, the paths into them, and what a tree looks like at one place.
The names of an object are those of a dictionary, and a path follows the first
one.
-/

namespace AuthStartpack

inductive JsonNode
  | null
  | boolean (value : Bool)
  | number (text : String)
  | string (value : String)
  | array (elements : List JsonNode)
  | object (properties : List (String × JsonNode))
deriving Repr

namespace JsonNode

/-- One step into a tree. -/
inductive Step
  | property (name : String)
  | index (position : ℕ)
deriving DecidableEq, Repr

/-- What is seen of a tree without entering it. -/
inductive Label
  | null
  | boolean (value : Bool)
  | number (text : String)
  | string (value : String)
  | array (length : ℕ)
  | object (names : List String)
deriving DecidableEq, Repr

def label : JsonNode → Label
  | null => .null
  | boolean value => .boolean value
  | number text => .number text
  | string value => .string value
  | array elements => .array elements.length
  | object properties => .object (properties.map (·.1))

def step? : JsonNode → Step → Option JsonNode
  | object properties, .property name => properties.lookup name
  | array elements, .index position => elements[position]?
  | _, _ => none

/-- The tree at the end of a path. -/
def at? : JsonNode → List Step → Option JsonNode
  | node, [] => some node
  | node, step :: path => (node.step? step).bind (at? · path)

@[simp]
theorem at?_nil (node : JsonNode) : node.at? [] = some node := rfl

theorem at?_cons (node : JsonNode) (step : Step) (path : List Step) :
    node.at? (step :: path) = (node.step? step).bind (at? · path) := rfl

theorem at?_append (node : JsonNode) (early late : List Step) :
    node.at? (early ++ late) = (node.at? early).bind (at? · late) := by
  induction early generalizing node with
  | nil => rfl
  | cons step early inductionHypothesis =>
      rw [List.cons_append, at?_cons, at?_cons]
      cases node.step? step with
      | none => rfl
      | some next => exact inductionHypothesis next

/-- There is nothing inside a string. -/
@[simp]
theorem step?_string (value : String) (step : Step) : (string value).step? step = none := by
  cases step <;> rfl

/-- A property rewritten in each entry is found where it was. -/
theorem lookup_map {rewrite : String → JsonNode → JsonNode} (name : String)
    (properties : List (String × JsonNode)) :
    (properties.map fun entry => (entry.1, rewrite entry.1 entry.2)).lookup name =
      (properties.lookup name).map (rewrite name) := by
  induction properties with
  | nil => rfl
  | cons entry rest inductionHypothesis =>
      obtain ⟨first, value⟩ := entry
      by_cases same : name = first
      · subst same
        simp
      · have differs : (name == first) = false := beq_eq_false_iff_ne.mpr same
        simp only [List.map_cons, List.lookup_cons, differs]
        exact inductionHypothesis

end JsonNode

end AuthStartpack
