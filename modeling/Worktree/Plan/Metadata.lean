import Worktree.Crates
/-
The edit plan and the budget of the JSON its extensions may carry: values are
counted one by one, and the bytes of each map that is not empty are added up.
-/

namespace Worktree

/-! ### JSON -/

/-- A JSON value; a number is its text, and an object is in key order. -/
inductive JsonValue
  | null
  | bool (value : Bool)
  | number (text : String)
  | string (value : String)
  | array (values : List JsonValue)
  | object (entries : List (String × JsonValue))

/-- Extension members, in key order. -/
abbrev Extensions := List (String × JsonValue)

structure JsonLimits where
  bytes : Nat
  nodes : Nat
  depth : Nat
  deriving DecidableEq, Repr

/-- The values that may still be visited, and the bytes counted so far. -/
structure JsonBudget where
  limits : JsonLimits
  nodes : Nat
  bytes : Nat
  deriving DecidableEq, Repr

namespace JsonBudget

def new (limits : JsonLimits) : JsonBudget :=
  { limits
    nodes := 0
    bytes := 0 }

def children : JsonValue → List JsonValue
  | .array values => values
  | .object entries => entries.map Prod.snd
  | _ => []

/-- The children stand above the rest of the stack, the last one on top. -/
def pushChildren (limits : JsonLimits) (nodes : Nat) (stack : List (JsonValue × Nat))
    (values : List JsonValue) (depth : Nat) : Except String (List (JsonValue × Nat)) :=
  if values.isEmpty then .ok stack
  else if depth ≥ limits.depth || values.length > limits.nodes - nodes - stack.length then
    .error "extension JSON exceeds its node or depth budget"
  else .ok ((values.map fun value => (value, depth + 1)).reverse ++ stack)

/-- Visits the stack; `left` values may still be counted. -/
def visitStack (limits : JsonLimits) : Nat → List (JsonValue × Nat) → Except String Nat
  | left, [] => .ok (limits.nodes - left)
  | 0, _ :: _ =>
      .error ("extension JSON has more than " ++ toString limits.nodes ++ " values")
  | left + 1, (value, depth) :: stack =>
      if depth > limits.depth then
        .error ("extension JSON exceeds depth " ++ toString limits.depth)
      else
        match pushChildren limits (limits.nodes - left) stack (children value) depth with
        | .error error => .error error
        | .ok stack => visitStack limits left stack

def visitValue (budget : JsonBudget) (value : JsonValue) : Except String JsonBudget := do
  let nodes ← visitStack budget.limits (budget.limits.nodes - budget.nodes) [(value, 1)]
  return { budget with nodes }

def visitMap (encode : Extensions → Bytes) (budget : JsonBudget) (values : Extensions) :
    Except String JsonBudget := do
  if values.isEmpty then return budget
  let budget ← (values.map Prod.snd).foldlM visitValue budget
  let total := budget.bytes + (encode values).length
  if total > budget.limits.bytes then
    throw ("extension JSON exceeds the combined " ++ toString budget.limits.bytes ++
      "-byte limit")
  return { budget with bytes := total }

end JsonBudget

/-! ### Edit plans -/

/-- A file of an edit plan, with the extensions beside its edits. -/
structure PlanFile (T : Type) where
  edit : FileEdit T
  extensions : Extensions

structure EditPlan (T : Type) where
  operation : String
  completeness : Option String
  files : List (PlanFile T)
  extensions : Extensions

structure PlanLimits where
  maxFiles : Nat
  maxEditsPerFile : Nat
  maxTotalEdits : Nat
  maxPathBytes : Nat
  maxTotalTextBytes : Nat

/-- What the engine of edit plans takes from other crates, besides the rest. -/
structure EditCrates (T : Type) extends Crates T where
  editExtensions : T → Extensions
  encodeExtensions : Extensions → Bytes
  encodePlan : EditPlan T → Bytes
  validateWith : EditPlan T → PlanLimits → Except String Unit
  files_bounded : ∀ plan limits, validateWith plan limits = .ok () →
    plan.files.length ≤ limits.maxFiles

namespace Edit

section

variable {T : Type} (crates : EditCrates T)

def invalidPlan (message : String) : WorktreeError :=
  .new .invalidPlan .validate message

def validateMetadata (plan : EditPlan T) (limits : WorktreeLimits) :
    Except WorktreeError Unit := do
  if plan.operation.utf8ByteSize > limits.maxOperationBytes ||
      plan.completeness.any fun value => value.utf8ByteSize > limits.maxOperationBytes then
    throw (invalidPlan "plan metadata exceeds its byte limit")
  let budget := JsonBudget.new
    ⟨limits.maxExtensionBytes, limits.maxExtensionNodes, limits.maxExtensionDepth⟩
  let maps := plan.extensions :: plan.files.flatMap fun file =>
    file.extensions :: file.edit.edits.map crates.editExtensions
  let _ ← (maps.foldlM (JsonBudget.visitMap crates.encodeExtensions) budget).mapError
    fun message => WorktreeError.withSource .invalidPlan .validate message message
  return ()

end

end Edit

end Worktree
