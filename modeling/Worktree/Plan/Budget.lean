import Worktree.Plan.Metadata
import Mathlib.Algebra.BigOperators.Group.List.Lemmas
import Mathlib.Algebra.Order.BigOperators.Group.List
import Mathlib.Logic.Relation
/-
What the budget of extensions accepts.

The values are counted with an explicit stack that is never let grow past what
may still be counted, and the bytes as the writer emits them. Both counts only
grow, so that they reject exactly what is over a limit in the end, in whatever
order the maps come.
-/

namespace Worktree

/-! ### Counting bytes -/

structure ByteCounter where
  total : Nat
  max : Nat
  exceeded : Bool
  deriving DecidableEq, Repr

namespace ByteCounter

/-- A write that does not fit is refused whole. -/
def write (counter : ByteCounter) (buffer : Bytes) : Except String Unit × ByteCounter :=
  match checkedAdd counter.total buffer.length with
  | none => (.error "extension byte count overflow", { counter with exceeded := true })
  | some next =>
      if next > counter.max then
        (.error "extension byte budget exceeded", { counter with exceeded := true })
      else (.ok (), { counter with total := next })

/-- The writer stops at the first write that is refused. -/
def writeAll (counter : ByteCounter) : List Bytes → Except String Unit × ByteCounter
  | [] => (.ok (), counter)
  | chunk :: rest =>
      match counter.write chunk with
      | (.ok (), counter) => counter.writeAll rest
      | (.error error, counter) => (.error error, counter)

theorem writeAll_ok {counter : ByteCounter} (bounded : counter.max ≤ u64Max)
    (chunks : List Bytes) (fits : counter.total + chunks.flatten.length ≤ counter.max) :
    counter.writeAll chunks =
      (.ok (), { counter with total := counter.total + chunks.flatten.length }) := by
  induction chunks generalizing counter with
  | nil => rfl
  | cons chunk rest ih =>
      rw [List.flatten_cons, List.length_append] at fits ⊢
      have added : checkedAdd counter.total chunk.length = some (counter.total + chunk.length) :=
        if_pos (by omega)
      have wrote : counter.write chunk =
          (.ok (), { counter with total := counter.total + chunk.length }) := by
        unfold write
        rw [added]
        exact if_neg (by omega)
      unfold writeAll
      rw [wrote]
      have tail : counter.total + chunk.length + rest.flatten.length ≤ counter.max := by omega
      have further : ({ counter with total := counter.total + chunk.length } :
          ByteCounter).writeAll rest = _ := ih bounded tail
      dsimp only
      rw [further, ← Nat.add_assoc]

theorem writeAll_exceeds {counter : ByteCounter} (within : counter.total ≤ counter.max)
    (chunks : List Bytes) (exceeds : counter.max < counter.total + chunks.flatten.length) :
    ∃ error left, counter.writeAll chunks = (.error error, left) ∧ left.exceeded = true := by
  induction chunks generalizing counter with
  | nil =>
      rw [List.flatten_nil, List.length_nil] at exceeds
      omega
  | cons chunk rest ih =>
      rw [List.flatten_cons, List.length_append] at exceeds
      unfold writeAll write
      cases added : checkedAdd counter.total chunk.length with
      | none => exact ⟨_, _, rfl, rfl⟩
      | some next =>
          have same : next = counter.total + chunk.length := by
            unfold checkedAdd at added
            split at added
            · exact (Option.some.inj added).symm
            · cases added
          subst same
          dsimp only
          by_cases fits : counter.total + chunk.length > counter.max
          · rw [if_pos fits]
            exact ⟨_, _, rfl, rfl⟩
          · rw [if_neg fits]
            refine ih ?_ ?_
            · exact Nat.le_of_not_lt fits
            · change counter.max < counter.total + chunk.length + rest.flatten.length
              omega

end ByteCounter

namespace JsonBudget

/-- As the code has it: the encoding comes in pieces, each counted on its own. -/
def visitMapInChunks (chunks : Extensions → List Bytes) (budget : JsonBudget)
    (values : Extensions) : Except String JsonBudget := do
  if values.isEmpty then return budget
  let budget ← (values.map Prod.snd).foldlM visitValue budget
  match (ByteCounter.mk budget.bytes budget.limits.bytes false).writeAll (chunks values) with
  | (.ok _, counter) => return { budget with bytes := counter.total }
  | (.error error, counter) =>
      throw (if counter.exceeded then
        "extension JSON exceeds the combined " ++ toString budget.limits.bytes ++ "-byte limit"
      else "could not encode extension JSON: " ++ error)

/-! ### The values of a value -/

mutual

/-- How many values there are in a value, itself included. -/
def count : JsonValue → Nat
  | .array values => 1 + countAll values
  | .object entries => 1 + countEntries entries
  | .null => 1
  | .bool _ => 1
  | .number _ => 1
  | .string _ => 1

def countAll : List JsonValue → Nat
  | [] => 0
  | value :: rest => count value + countAll rest

def countEntries : List (String × JsonValue) → Nat
  | [] => 0
  | entry :: rest => countEntry entry + countEntries rest

def countEntry : String × JsonValue → Nat
  | (_, value) => count value

end

/-- `value` stands at this depth in `root`, which stands at depth one itself. -/
inductive Nested (root : JsonValue) : Nat → JsonValue → Prop
  | root : Nested root 1 root
  | child {depth : Nat} {value inner : JsonValue} (outer : Nested root depth value)
      (among : inner ∈ children value) : Nested root (depth + 1) inner

theorem countAll_eq (values : List JsonValue) : countAll values = (values.map count).sum := by
  induction values with
  | nil => rfl
  | cons value rest ih => rw [countAll, ih, List.map_cons, List.sum_cons]

theorem countEntries_eq (entries : List (String × JsonValue)) :
    countEntries entries = ((entries.map Prod.snd).map count).sum := by
  induction entries with
  | nil => rfl
  | cons entry rest ih =>
      rw [countEntries, countEntry, ih, List.map_cons, List.map_cons, List.sum_cons]

theorem count_eq (value : JsonValue) : count value = 1 + ((children value).map count).sum := by
  cases value with
  | null => rfl
  | bool value => rfl
  | number text => rfl
  | string value => rfl
  | array values => rw [count, countAll_eq, children]
  | object entries => rw [count, countEntries_eq, children]

theorem count_pos (value : JsonValue) : 0 < count value := by
  rw [count_eq]
  omega

theorem length_le_counts (values : List JsonValue) : values.length ≤ (values.map count).sum := by
  induction values with
  | nil => exact Nat.le_refl 0
  | cons value rest ih =>
      have positive := count_pos value
      rw [List.length_cons, List.map_cons, List.sum_cons]
      omega

/-- Everything in the value stays within the depth when the value stands here. -/
def Shallow (limit depth : Nat) (value : JsonValue) : Prop :=
  ∀ below inner, Nested value below inner → depth + below ≤ limit + 1

theorem nested_cases {value inner : JsonValue} {depth : Nat} (nested : Nested value depth inner) :
    (depth = 1 ∧ inner = value) ∨
      ∃ child below, child ∈ children value ∧ depth = below + 1 ∧ Nested child below inner := by
  induction nested with
  | root => exact .inl ⟨rfl, rfl⟩
  | child outer among ih =>
      right
      rcases ih with ⟨rfl, rfl⟩ | ⟨child, below, first, rfl, deeper⟩
      · exact ⟨_, 1, among, rfl, .root⟩
      · exact ⟨child, below + 1, first, rfl, deeper.child among⟩

theorem Nested.under {value child inner : JsonValue} {below : Nat}
    (among : child ∈ children value) (nested : Nested child below inner) :
    Nested value (below + 1) inner := by
  induction nested with
  | root => exact Nested.root.child among
  | child outer deeper ih => exact ih.child deeper

theorem shallow_iff {limit depth : Nat} {value : JsonValue} :
    Shallow limit depth value ↔
      depth ≤ limit ∧ ∀ child ∈ children value, Shallow limit (depth + 1) child := by
  constructor
  · intro shallow
    refine ⟨Nat.le_of_succ_le_succ (shallow 1 value .root),
      fun child among below inner nested => ?_⟩
    have deeper := shallow (below + 1) inner (nested.under among)
    omega
  · intro both below inner nested
    rcases nested_cases nested with ⟨rfl, rfl⟩ | ⟨child, further, among, rfl, deeper⟩
    · exact Nat.succ_le_succ both.1
    · have bound := both.2 child among further inner deeper
      omega

/-! ### Visiting the stack -/

/-- How many values the stack stands for. -/
def weight (stack : List (JsonValue × Nat)) : Nat :=
  (stack.map fun entry => count entry.1).sum

theorem weight_cons (value : JsonValue) (depth : Nat) (stack : List (JsonValue × Nat)) :
    weight ((value, depth) :: stack) = count value + weight stack :=
  List.sum_cons

theorem weight_pushed (values : List JsonValue) (depth : Nat) (stack : List (JsonValue × Nat)) :
    weight ((values.map fun value => (value, depth)).reverse ++ stack) =
      (values.map count).sum + weight stack := by
  unfold weight
  rw [List.map_append, List.sum_append, List.map_reverse, List.sum_reverse, List.map_map]
  rfl

theorem length_le_weight (stack : List (JsonValue × Nat)) : stack.length ≤ weight stack := by
  induction stack with
  | nil => exact Nat.le_refl 0
  | cons entry rest ih =>
      have positive := count_pos entry.1
      rw [List.length_cons, weight_cons]
      omega

/-- The stack is visited to its end exactly when nothing in it is over a limit. -/
theorem visitStack_ok_iff {limits : JsonLimits} {left : Nat} (bounded : left ≤ limits.nodes)
    {stack : List (JsonValue × Nat)} {nodes : Nat} :
    visitStack limits left stack = .ok nodes ↔
      weight stack ≤ left ∧ (∀ entry ∈ stack, Shallow limits.depth entry.2 entry.1) ∧
        nodes = limits.nodes - (left - weight stack) := by
  induction left generalizing stack with
  | zero =>
      cases stack with
      | nil =>
          simp only [visitStack, Except.ok.injEq]
          constructor
          · rintro rfl
            exact ⟨Nat.le_refl 0, by simp, rfl⟩
          · rintro ⟨_, _, rfl⟩
            rfl
      | cons entry rest =>
          have heavy := length_le_weight (entry :: rest)
          rw [List.length_cons] at heavy
          constructor
          · intro impossible
            cases impossible
          · rintro ⟨light, _⟩
            omega
  | succ left ih =>
      cases stack with
      | nil =>
          simp only [visitStack, Except.ok.injEq]
          constructor
          · rintro rfl
            exact ⟨Nat.zero_le _, by simp, rfl⟩
          · rintro ⟨_, _, rfl⟩
            rfl
      | cons entry rest =>
          obtain ⟨value, depth⟩ := entry
          have total : weight ((value, depth) :: rest) =
              1 + ((children value).map count).sum + weight rest := by
            rw [weight_cons, count_eq]
          have many := length_le_counts (children value)
          have heavy := length_le_weight rest
          unfold visitStack pushChildren
          by_cases deep : depth > limits.depth
          · rw [if_pos deep]
            constructor
            · intro impossible
              cases impossible
            · rintro ⟨_, shallow, _⟩
              have here := (shallow_iff.mp (shallow _ List.mem_cons_self)).1
              omega
          · rw [if_neg deep]
            by_cases leaf : (children value).isEmpty
            · have none : children value = [] := List.isEmpty_iff.mp leaf
              rw [if_pos leaf]
              dsimp only
              rw [ih (Nat.le_of_succ_le bounded), total, none]
              simp only [List.map_nil, List.sum_nil, List.forall_mem_cons]
              constructor
              · rintro ⟨light, shallow, rfl⟩
                refine ⟨by omega, ⟨shallow_iff.mpr ⟨by omega, ?_⟩, shallow⟩, by omega⟩
                rw [none]
                intro child impossible
                cases impossible
              · rintro ⟨light, ⟨_, shallow⟩, rfl⟩
                exact ⟨by omega, shallow, by omega⟩
            · obtain ⟨child, among⟩ := List.exists_mem_of_ne_nil _
                fun none => leaf (List.isEmpty_iff.mpr none)
              rw [if_neg leaf]
              by_cases exceeds : (decide (depth ≥ limits.depth) || decide ((children value).length >
                  limits.nodes - (limits.nodes - left) - rest.length)) = true
              · rw [if_pos exceeds]
                rw [Bool.or_eq_true, decide_eq_true_eq, decide_eq_true_eq] at exceeds
                constructor
                · intro impossible
                  cases impossible
                · rintro ⟨light, shallow, _⟩
                  have below := (shallow_iff.mp ((shallow_iff.mp
                    (shallow _ List.mem_cons_self)).2 child among)).1
                  dsimp only at below
                  omega
              · rw [if_neg exceeds]
                rw [Bool.or_eq_true, decide_eq_true_eq, decide_eq_true_eq, not_or] at exceeds
                dsimp only
                rw [ih (Nat.le_of_succ_le bounded), total, weight_pushed]
                have split : (∀ entry ∈ ((children value).map fun value =>
                      (value, depth + 1)).reverse ++ rest,
                      Shallow limits.depth entry.2 entry.1) ↔
                    ∀ entry ∈ (value, depth) :: rest, Shallow limits.depth entry.2 entry.1 := by
                  rw [List.forall_mem_append, List.forall_mem_cons]
                  refine and_congr_left fun _ => ?_
                  rw [shallow_iff]
                  simp only [List.mem_reverse, List.forall_mem_map]
                  constructor
                  · intro inside
                    exact ⟨by omega, inside⟩
                  · exact And.right
                rw [split]
                constructor
                · rintro ⟨light, shallow, rfl⟩
                  exact ⟨by omega, shallow, by omega⟩
                · rintro ⟨light, shallow, rfl⟩
                  exact ⟨by omega, shallow, by omega⟩

theorem visitValue_ok_iff {budget after : JsonBudget} (counted : budget.nodes ≤ budget.limits.nodes)
    {value : JsonValue} :
    visitValue budget value = .ok after ↔
      budget.nodes + count value ≤ budget.limits.nodes ∧ Shallow budget.limits.depth 1 value ∧
        after = { budget with nodes := budget.nodes + count value } := by
  have single : weight [(value, 1)] = count value := by
    rw [weight_cons]
    rfl
  unfold visitValue
  rw [bind_ok_iff]
  constructor
  · rintro ⟨nodes, visited, same⟩
    rw [visitStack_ok_iff (Nat.sub_le _ _), single, List.forall_mem_singleton] at visited
    obtain ⟨light, shallow, rfl⟩ := visited
    cases same
    refine ⟨by omega, shallow, ?_⟩
    congr 1
    omega
  · rintro ⟨light, shallow, rfl⟩
    refine ⟨_, visitStack_ok_iff (Nat.sub_le _ _) |>.mpr ⟨?_, ?_, rfl⟩, ?_⟩
    · rw [single]
      omega
    · rw [List.forall_mem_singleton]
      exact shallow
    · rw [single]
      have same : budget.limits.nodes - (budget.limits.nodes - budget.nodes - count value) =
          budget.nodes + count value := by omega
      rw [same]
      rfl

theorem visitValues_ok_iff {budget after : JsonBudget}
    (counted : budget.nodes ≤ budget.limits.nodes) {values : List JsonValue} :
    values.foldlM visitValue budget = .ok after ↔
      budget.nodes + (values.map count).sum ≤ budget.limits.nodes ∧
        (∀ value ∈ values, Shallow budget.limits.depth 1 value) ∧
        after = { budget with nodes := budget.nodes + (values.map count).sum } := by
  induction values generalizing budget with
  | nil =>
      rw [List.foldlM_nil, List.map_nil, List.sum_nil]
      constructor
      · intro same
        cases same
        exact ⟨counted, by simp, rfl⟩
      · rintro ⟨_, _, rfl⟩
        rfl
  | cons value rest ih =>
      rw [List.foldlM_cons, bind_ok_iff, List.map_cons, List.sum_cons, List.forall_mem_cons]
      constructor
      · rintro ⟨middle, visited, further⟩
        obtain ⟨light, shallow, rfl⟩ := (visitValue_ok_iff counted).mp visited
        obtain ⟨lighter, others, rfl⟩ := (ih light).mp further
        dsimp only at lighter others
        refine ⟨by omega, ⟨shallow, others⟩, ?_⟩
        rw [Nat.add_assoc]
      · rintro ⟨light, ⟨shallow, others⟩, rfl⟩
        have first : budget.nodes + count value ≤ budget.limits.nodes := by omega
        refine ⟨_, (visitValue_ok_iff counted).mpr ⟨first, shallow, rfl⟩,
          (ih first).mpr ⟨?_, others, ?_⟩⟩
        · dsimp only
          omega
        · rw [Nat.add_assoc]

/-! ### Visiting maps -/

variable {chunks : Extensions → List Bytes}

/-- The values of a map. -/
def mapCount (values : Extensions) : Nat :=
  ((values.map Prod.snd).map count).sum

/-- The bytes a map adds: an empty one is not written. -/
def mapBytes (chunks : Extensions → List Bytes) (values : Extensions) : Nat :=
  if values.isEmpty then 0 else (chunks values).flatten.length

theorem visitMapInChunks_ok_iff {budget after : JsonBudget}
    (machine : budget.limits.bytes ≤ u64Max) (counted : budget.nodes ≤ budget.limits.nodes)
    (written : budget.bytes ≤ budget.limits.bytes) {values : Extensions} :
    visitMapInChunks chunks budget values = .ok after ↔
      budget.nodes + mapCount values ≤ budget.limits.nodes ∧
        budget.bytes + mapBytes chunks values ≤ budget.limits.bytes ∧
        (∀ entry ∈ values, Shallow budget.limits.depth 1 entry.2) ∧
        after = { budget with
          nodes := budget.nodes + mapCount values
          bytes := budget.bytes + mapBytes chunks values } := by
  unfold visitMapInChunks mapBytes
  by_cases empty : values.isEmpty
  · rw [if_pos empty, if_pos empty]
    have none : values = [] := List.isEmpty_iff.mp empty
    subst none
    constructor
    · intro same
      cases same
      exact ⟨counted, written, by simp, rfl⟩
    · rintro ⟨_, _, _, rfl⟩
      rfl
  · rw [if_neg empty, if_neg empty]
    have shallows : (∀ value ∈ values.map Prod.snd, Shallow budget.limits.depth 1 value) ↔
        ∀ entry ∈ values, Shallow budget.limits.depth 1 entry.2 := List.forall_mem_map
    change ((values.map Prod.snd).foldlM visitValue budget >>= _) = Except.ok after ↔ _
    rw [bind_ok_iff]
    constructor
    · rintro ⟨middle, visited, emitted⟩
      obtain ⟨light, shallow, rfl⟩ := (visitValues_ok_iff counted).mp visited
      by_cases fits : budget.bytes + (chunks values).flatten.length ≤ budget.limits.bytes
      · have wrote : (ByteCounter.mk budget.bytes budget.limits.bytes false).writeAll
            (chunks values) = _ := ByteCounter.writeAll_ok machine (chunks values) fits
        dsimp only at emitted
        rw [wrote] at emitted
        cases emitted
        exact ⟨light, fits, shallows.mp shallow, rfl⟩
      · obtain ⟨error, left, wrote, _⟩ := ByteCounter.writeAll_exceeds
          (show (ByteCounter.mk budget.bytes budget.limits.bytes false).total ≤ _ from written)
          (chunks values) (Nat.lt_of_not_le fits)
        dsimp only at emitted
        rw [wrote] at emitted
        cases emitted
    · rintro ⟨light, fits, shallow, rfl⟩
      refine ⟨_, (visitValues_ok_iff counted).mpr ⟨light, shallows.mpr shallow, rfl⟩, ?_⟩
      have wrote : (ByteCounter.mk budget.bytes budget.limits.bytes false).writeAll
          (chunks values) = _ := ByteCounter.writeAll_ok machine (chunks values) fits
      dsimp only
      rw [wrote]
      rfl

/-- What one budget accepts is decided by the three totals. -/
theorem visitMaps_ok_iff {budget after : JsonBudget} (machine : budget.limits.bytes ≤ u64Max)
    (counted : budget.nodes ≤ budget.limits.nodes) (written : budget.bytes ≤ budget.limits.bytes)
    {maps : List Extensions} :
    maps.foldlM (visitMapInChunks chunks) budget = .ok after ↔
      budget.nodes + (maps.map mapCount).sum ≤ budget.limits.nodes ∧
        budget.bytes + (maps.map (mapBytes chunks)).sum ≤ budget.limits.bytes ∧
        (∀ values ∈ maps, ∀ entry ∈ values, Shallow budget.limits.depth 1 entry.2) ∧
        after = { budget with
          nodes := budget.nodes + (maps.map mapCount).sum
          bytes := budget.bytes + (maps.map (mapBytes chunks)).sum } := by
  induction maps generalizing budget with
  | nil =>
      rw [List.foldlM_nil]
      constructor
      · intro same
        cases same
        exact ⟨counted, written, by simp, rfl⟩
      · rintro ⟨_, _, _, rfl⟩
        rfl
  | cons values rest ih =>
      rw [List.foldlM_cons, bind_ok_iff]
      simp only [List.map_cons, List.sum_cons, List.forall_mem_cons]
      have remaining : budget.nodes + mapCount values ≤ budget.limits.nodes →
          budget.bytes + mapBytes chunks values ≤ budget.limits.bytes →
          (rest.foldlM (visitMapInChunks chunks) { budget with
            nodes := budget.nodes + mapCount values
            bytes := budget.bytes + mapBytes chunks values } = .ok after ↔ _) :=
        fun fewer shorter => ih machine fewer shorter
      constructor
      · rintro ⟨middle, visited, further⟩
        obtain ⟨light, fits, shallow, rfl⟩ :=
          (visitMapInChunks_ok_iff machine counted written).mp visited
        obtain ⟨lighter, shorter, others, rfl⟩ := (remaining light fits).mp further
        dsimp only at lighter shorter others
        refine ⟨by omega, by omega, ⟨shallow, others⟩, ?_⟩
        rw [Nat.add_assoc, Nat.add_assoc]
      · rintro ⟨light, fits, ⟨shallow, others⟩, rfl⟩
        have fewer : budget.nodes + mapCount values ≤ budget.limits.nodes := by omega
        have shorter : budget.bytes + mapBytes chunks values ≤ budget.limits.bytes := by omega
        refine ⟨_, (visitMapInChunks_ok_iff machine counted written).mpr
          ⟨fewer, shorter, shallow, rfl⟩, (remaining fewer shorter).mpr ⟨?_, ?_, others, ?_⟩⟩
        · dsimp only
          omega
        · dsimp only
          omega
        · rw [Nat.add_assoc, Nat.add_assoc]

/-! ### The stack -/

/-- One round of the loop over the stack. -/
inductive Round (limits : JsonLimits) :
    Nat × List (JsonValue × Nat) → Nat × List (JsonValue × Nat) → Prop
  | visit (left : Nat) (value : JsonValue) (depth : Nat) (stack pushed : List (JsonValue × Nat))
      (shallow : ¬ depth > limits.depth)
      (pushes : pushChildren limits (limits.nodes - left) stack (children value) depth =
        .ok pushed) :
      Round limits (left + 1, (value, depth) :: stack) (left, pushed)

theorem Round.bounded {limits : JsonLimits} {before after : Nat × List (JsonValue × Nat)}
    (round : Round limits before after)
    (within : before.1 ≤ limits.nodes ∧ before.2.length ≤ limits.nodes) :
    after.1 ≤ limits.nodes ∧ after.2.length ≤ limits.nodes := by
  cases round with
  | visit left value depth stack pushed shallow pushes =>
      obtain ⟨fuel, height⟩ := within
      dsimp only [List.length_cons] at fuel height ⊢
      refine ⟨by omega, ?_⟩
      unfold pushChildren at pushes
      split at pushes
      · cases pushes
        omega
      · split at pushes
        · cases pushes
        · next room =>
            rw [Bool.or_eq_true, decide_eq_true_eq, decide_eq_true_eq, not_or] at room
            cases pushes
            rw [List.length_append, List.length_reverse, List.length_map]
            omega

/-- At every point of a visit the stack fits the budget. -/
theorem stack_bounded {limits : JsonLimits} (positive : 0 < limits.nodes) {nodes left : Nat}
    {value : JsonValue} {stack : List (JsonValue × Nat)}
    (reached : Relation.ReflTransGen (Round limits) (limits.nodes - nodes, [(value, 1)])
      (left, stack)) : stack.length ≤ limits.nodes := by
  have all : ∀ point, Relation.ReflTransGen (Round limits) (limits.nodes - nodes, [(value, 1)])
      point → point.1 ≤ limits.nodes ∧ point.2.length ≤ limits.nodes := by
    intro point reached
    induction reached with
    | refl => exact ⟨Nat.sub_le _ _, positive⟩
    | tail _ round ih => exact round.bounded ih
  exact (all _ reached).2

/-! ### The verdict -/

/-- The limits on the values, their depth and the bytes of the maps. -/
def Within (chunks : Extensions → List Bytes) (limits : JsonLimits) (maps : List Extensions) :
    Prop :=
  (maps.map mapCount).sum ≤ limits.nodes ∧
    (∀ values ∈ maps, ∀ entry ∈ values, ∀ depth inner, Nested entry.2 depth inner →
      depth ≤ limits.depth) ∧
    ((maps.filter fun values => !values.isEmpty).map fun values =>
      (chunks values).flatten.length).sum ≤ limits.bytes

theorem mapBytes_sum (maps : List Extensions) :
    (maps.map (mapBytes chunks)).sum = ((maps.filter fun values => !values.isEmpty).map
      fun values => (chunks values).flatten.length).sum := by
  induction maps with
  | nil => rfl
  | cons values rest ih =>
      rw [List.map_cons, List.sum_cons, ih, mapBytes, List.filter_cons]
      by_cases empty : values.isEmpty
      · simp only [empty, if_true, Bool.not_true, Bool.false_eq_true, if_false, Nat.zero_add]
      · simp only [empty, Bool.not_false, Bool.false_eq_true, if_false, if_true, List.map_cons,
          List.sum_cons]

theorem shallow_one {limit : Nat} {value : JsonValue} :
    Shallow limit 1 value ↔ ∀ depth inner, Nested value depth inner → depth ≤ limit := by
  constructor
  · intro shallow depth inner nested
    have bound := shallow depth inner nested
    omega
  · intro bounded depth inner nested
    have bound := bounded depth inner nested
    omega

/-- One budget accepts exactly the maps that are within its limits together. -/
theorem visitMaps_within {limits : JsonLimits} (machine : limits.bytes ≤ u64Max)
    {maps : List Extensions} :
    (∃ after, maps.foldlM (visitMapInChunks chunks) (new limits) = .ok after) ↔
      Within chunks limits maps := by
  have decides : ∀ after, maps.foldlM (visitMapInChunks chunks) (new limits) = .ok after ↔
      0 + (maps.map mapCount).sum ≤ limits.nodes ∧
        0 + (maps.map (mapBytes chunks)).sum ≤ limits.bytes ∧
        (∀ values ∈ maps, ∀ entry ∈ values, Shallow limits.depth 1 entry.2) ∧
        after = { new limits with
          nodes := 0 + (maps.map mapCount).sum
          bytes := 0 + (maps.map (mapBytes chunks)).sum } :=
    fun after => visitMaps_ok_iff machine (Nat.zero_le _) (Nat.zero_le _)
  simp only [Nat.zero_add, mapBytes_sum, shallow_one] at decides
  constructor
  · rintro ⟨after, accepted⟩
    obtain ⟨light, fits, shallow, _⟩ := (decides after).mp accepted
    exact ⟨light, shallow, fits⟩
  · rintro ⟨light, shallow, fits⟩
    exact ⟨_, (decides _).mpr ⟨light, fits, shallow, rfl⟩⟩

/-- One budget accepts exactly the maps that are within its limits together, in
any order, and its stack never holds more than the values it may count. -/
theorem budget_exact (chunks : Extensions → List Bytes) (limits : JsonLimits)
    (nonzero : limits.bytes ≠ 0 ∧ limits.nodes ≠ 0 ∧ limits.depth ≠ 0)
    (machine : limits.bytes ≤ u64Max) (maps : List Extensions) :
    ((∃ after, maps.foldlM (visitMapInChunks chunks) (new limits) = .ok after) ↔
      Within chunks limits maps) ∧
    (∀ others : List Extensions, others.Perm maps →
      ((∃ after, others.foldlM (visitMapInChunks chunks) (new limits) = .ok after) ↔
        ∃ after, maps.foldlM (visitMapInChunks chunks) (new limits) = .ok after)) ∧
    ∀ (nodes left : Nat) (value : JsonValue) (stack : List (JsonValue × Nat)),
      Relation.ReflTransGen (Round limits) (limits.nodes - nodes, [(value, 1)]) (left, stack) →
        stack.length ≤ limits.nodes := by
  refine ⟨visitMaps_within machine, fun others shuffled => ?_, fun nodes left value stack reached =>
    stack_bounded (Nat.pos_of_ne_zero nonzero.2.1) reached⟩
  rw [visitMaps_within machine, visitMaps_within machine]
  unfold Within
  rw [(shuffled.map mapCount).sum_eq,
    ((shuffled.filter _).map _).sum_eq]
  simp only [shuffled.mem_iff]

/-- Two values, and six bytes of the seven there are room for. -/
theorem budget_exact_pair :
    ((∃ after, [[("a", JsonValue.null)], [], [("b", .bool true)]].foldlM
        (visitMapInChunks fun _ => [[1, 2], [3]]) (new ⟨7, 2, 1⟩) = .ok after) ↔
      Within (fun _ => [[1, 2], [3]]) ⟨7, 2, 1⟩
        [[("a", .null)], [], [("b", .bool true)]]) ∧
    (∃ after, [[("a", JsonValue.null)], [], [("b", .bool true)]].foldlM
        (visitMapInChunks fun _ => [[1, 2], [3]]) (new ⟨7, 2, 1⟩) = .ok after) :=
  ⟨(budget_exact _ _ (by decide) (by decide) _).1, _, rfl⟩

/-! ### The encoding as a whole -/

variable {encode : Extensions → Bytes}

/-- The pieces may as well be counted at once. -/
theorem visitMap_eq_inChunks (encodes : ∀ values, (chunks values).flatten = encode values)
    {budget : JsonBudget} (machine : budget.limits.bytes ≤ u64Max)
    (counted : budget.nodes ≤ budget.limits.nodes) (written : budget.bytes ≤ budget.limits.bytes)
    (values : Extensions) :
    visitMap encode budget values = visitMapInChunks chunks budget values := by
  unfold visitMap visitMapInChunks
  by_cases empty : values.isEmpty
  · rw [if_pos empty, if_pos empty]
  rw [if_neg empty, if_neg empty]
  cases visited : (values.map Prod.snd).foldlM visitValue budget with
  | error error => rfl
  | ok middle =>
      obtain ⟨_, _, rfl⟩ := (visitValues_ok_iff counted).mp visited
      dsimp only [bind, Except.bind]
      rw [← encodes values]
      by_cases fits : budget.bytes + (chunks values).flatten.length ≤ budget.limits.bytes
      · have wrote : (ByteCounter.mk budget.bytes budget.limits.bytes false).writeAll
            (chunks values) = _ := ByteCounter.writeAll_ok machine (chunks values) fits
        rw [wrote, if_neg (Nat.not_lt.mpr fits)]
      · obtain ⟨error, left, wrote, exceeded⟩ := ByteCounter.writeAll_exceeds
          (show (ByteCounter.mk budget.bytes budget.limits.bytes false).total ≤ _ from written)
          (chunks values) (Nat.lt_of_not_le fits)
        rw [wrote, if_pos (Nat.lt_of_not_le fits)]
        dsimp only
        rw [if_pos exceeded]
        rfl

theorem visitMaps_eq_inChunks (encodes : ∀ values, (chunks values).flatten = encode values)
    {budget : JsonBudget} (machine : budget.limits.bytes ≤ u64Max)
    (counted : budget.nodes ≤ budget.limits.nodes) (written : budget.bytes ≤ budget.limits.bytes)
    (maps : List Extensions) :
    maps.foldlM (visitMap encode) budget = maps.foldlM (visitMapInChunks chunks) budget := by
  induction maps generalizing budget with
  | nil => rfl
  | cons values rest ih =>
      rw [List.foldlM_cons, List.foldlM_cons,
        visitMap_eq_inChunks encodes machine counted written values]
      cases visited : visitMapInChunks chunks budget values with
      | error error => rfl
      | ok middle =>
          obtain ⟨light, fits, _, rfl⟩ :=
            (visitMapInChunks_ok_iff machine counted written).mp visited
          exact ih machine light fits

end JsonBudget

/-- The metadata of a plan pass exactly when its names are short and its extensions are
within the budget together, however they are encoded. -/
theorem Edit.validateMetadata_ok_iff {T : Type} {crates : EditCrates T}
    {chunks : Extensions → List Bytes}
    (encodes : ∀ values, (chunks values).flatten = crates.encodeExtensions values)
    {limits : WorktreeLimits} (machine : limits.maxExtensionBytes ≤ u64Max) {plan : EditPlan T} :
    validateMetadata crates plan limits = .ok () ↔
      plan.operation.utf8ByteSize ≤ limits.maxOperationBytes ∧
        (∀ value ∈ plan.completeness, value.utf8ByteSize ≤ limits.maxOperationBytes) ∧
        JsonBudget.Within chunks
          ⟨limits.maxExtensionBytes, limits.maxExtensionNodes, limits.maxExtensionDepth⟩
          (plan.extensions :: plan.files.flatMap fun file =>
            file.extensions :: file.edit.edits.map crates.editExtensions) := by
  have named : (plan.operation.utf8ByteSize > limits.maxOperationBytes ||
      plan.completeness.any fun value => value.utf8ByteSize > limits.maxOperationBytes) = false ↔
      plan.operation.utf8ByteSize ≤ limits.maxOperationBytes ∧
        ∀ value ∈ plan.completeness, value.utf8ByteSize ≤ limits.maxOperationBytes := by
    cases plan.completeness <;> simp
  have visits := JsonBudget.visitMaps_eq_inChunks encodes
    (show (JsonBudget.new ⟨limits.maxExtensionBytes, limits.maxExtensionNodes,
      limits.maxExtensionDepth⟩).limits.bytes ≤ u64Max from machine) (Nat.zero_le _) (Nat.zero_le _)
    (plan.extensions :: plan.files.flatMap fun file =>
      file.extensions :: file.edit.edits.map crates.editExtensions)
  rw [← and_assoc, ← named, ← JsonBudget.visitMaps_within machine, ← visits]
  unfold validateMetadata
  cases long : plan.operation.utf8ByteSize > limits.maxOperationBytes ||
      plan.completeness.any fun value => value.utf8ByteSize > limits.maxOperationBytes with
  | true =>
      constructor
      · intro impossible
        cases impossible
      · rintro ⟨impossible, _⟩
        cases impossible
  | false =>
      dsimp only [bind, Except.bind]
      cases visited : (plan.extensions :: plan.files.flatMap fun file =>
          file.extensions :: file.edit.edits.map crates.editExtensions).foldlM
          (JsonBudget.visitMap crates.encodeExtensions) (JsonBudget.new
            ⟨limits.maxExtensionBytes, limits.maxExtensionNodes, limits.maxExtensionDepth⟩) with
      | error error =>
          constructor
          · intro impossible
            cases impossible
          · rintro ⟨_, _, impossible⟩
            cases impossible
      | ok after => exact ⟨fun _ => ⟨rfl, after, rfl⟩, fun _ => rfl⟩

end Worktree
