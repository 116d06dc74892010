import WakameVdc.HaManagerSound

/-!
# Conditions written in the DSL

The methods of the `conditions` block build the tree of `Condition` in the order in which Ruby
evaluates their arguments. Beside it stand the tree of the nested calls and the boolean reading
of an expression.
-/

namespace WakameVdc

open Lib

namespace HaManager

/-! ## The builder -/

/-- `Builder#insert_node`, on the children of the root node. -/
def insertNode (children : List Node) (node : Node) : List Node := children ++ [node]

/-- `Builder#stack_node`: the new node takes all children of the root node. -/
def stackNode (children : List Node) (kind : NodeKind) : List Node :=
  insertNode [] (.mk kind children)

namespace DSLProxy

def monitorItem (children : List Node) (name : String) : Except HaError (List Node) :=
  .ok (insertNode children (.mk (.monitorItem name) []))

def lastNtimesFailure (children : List Node) (ntimes : Nat) (monitorItemName : String) :
    Except HaError (List Node) := do
  let node ← HaManager.lastNtimesFailure ntimes monitorItemName
  return insertNode children node

/-- A `BasicObject` has no `raise`. -/
def opEqAll (children : List Node) (targetValue : Option Value) (nodes : Nat) :
    Except HaError (List Node) :=
  if nodes < 1 then .error .noMethodError
  else .ok (stackNode children (.equal targetValue))

def opAnd (children : List Node) (nodes : Nat) : Except HaError (List Node) :=
  if nodes < 1 then .error .noMethodError
  else .ok (stackNode children .and)

end DSLProxy

/-! ## Expressions -/

/-- An expression whose calls the DSL takes: a number of times is positive, and an operator has
an operand. -/
inductive Expr
  | monitorItem (name : String)
  | lastNtimesFailure (ntimes : Nat) (positive : 0 < ntimes) (monitorItemName : String)
  | opEqAll (targetValue : Option Value) (node : Expr) (nodes : List Expr)
  | opAnd (node : Expr) (nodes : List Expr)

namespace Expr

mutual

def exec (children : List Node) : Expr → Except HaError (List Node)
  | .monitorItem name => DSLProxy.monitorItem children name
  | .lastNtimesFailure ntimes _ name => DSLProxy.lastNtimesFailure children ntimes name
  | .opEqAll targetValue node nodes => do
    let children ← node.exec children
    let children ← execAll children nodes
    DSLProxy.opEqAll children targetValue (nodes.length + 1)
  | .opAnd node nodes => do
    let children ← node.exec children
    let children ← execAll children nodes
    DSLProxy.opAnd children (nodes.length + 1)

def execAll (children : List Node) : List Expr → Except HaError (List Node)
  | [] => .ok children
  | node :: nodes => do
    let children ← node.exec children
    execAll children nodes

end

/-- `Condition#parse_dsl`: what the root node holds afterwards. -/
def parseDsl (e : Expr) : Except HaError (List Node) := e.exec []

mutual

def tree : Expr → Node
  | .monitorItem name => .mk (.monitorItem name) []
  | .lastNtimesFailure ntimes _ name => .mk (.lastNtime .failure ntimes name) []
  | .opEqAll targetValue node nodes => .mk (.equal targetValue) (node.tree :: trees nodes)
  | .opAnd node nodes => .mk .and (node.tree :: trees nodes)

def trees : List Expr → List Node
  | [] => []
  | node :: nodes => node.tree :: trees nodes

end

mutual

def subs : Expr → List Expr
  | .monitorItem name => [.monitorItem name]
  | .lastNtimesFailure ntimes positive name => [.lastNtimesFailure ntimes positive name]
  | .opEqAll targetValue node nodes => .opEqAll targetValue node nodes :: (node.subs ++ subsAll nodes)
  | .opAnd node nodes => .opAnd node nodes :: (node.subs ++ subsAll nodes)

def subsAll : List Expr → List Expr
  | [] => []
  | node :: nodes => node.subs ++ subsAll nodes

end

/-- A call without operands. -/
def IsItem : Expr → Prop
  | .monitorItem _ => True
  | .lastNtimesFailure _ _ _ => True
  | .opEqAll _ _ _ => False
  | .opAnd _ _ => False

/-- An operator stands only as the first operand of another. -/
def Straight : Expr → Prop
  | .monitorItem _ => True
  | .lastNtimesFailure _ _ _ => True
  | .opEqAll _ node nodes => node.Straight ∧ ∀ x ∈ nodes, x.IsItem
  | .opAnd node nodes => node.Straight ∧ ∀ x ∈ nodes, x.IsItem

/-! ## What the root node gets -/

mutual

def grow (children : List Node) : Expr → List Node
  | .monitorItem name => insertNode children (.mk (.monitorItem name) [])
  | .lastNtimesFailure ntimes _ name => insertNode children (.mk (.lastNtime .failure ntimes name) [])
  | .opEqAll targetValue node nodes =>
    stackNode (growAll (node.grow children) nodes) (.equal targetValue)
  | .opAnd node nodes => stackNode (growAll (node.grow children) nodes) .and

def growAll (children : List Node) : List Expr → List Node
  | [] => children
  | node :: nodes => growAll (node.grow children) nodes

end

mutual

theorem exec_eq (children : List Node) : (e : Expr) → e.exec children = .ok (e.grow children)
  | .monitorItem _ => rfl
  | .lastNtimesFailure ntimes positive name => by
    simp only [exec, DSLProxy.lastNtimesFailure, HaManager.lastNtimesFailure, if_pos positive]
    rfl
  | .opEqAll targetValue node nodes => by
    simp only [exec, exec_eq children node, execAll_eq _ nodes, DSLProxy.opEqAll, bind, Except.bind]
    simp [grow]
  | .opAnd node nodes => by
    simp only [exec, exec_eq children node, execAll_eq _ nodes, DSLProxy.opAnd, bind, Except.bind]
    simp [grow]

theorem execAll_eq (children : List Node) :
    (nodes : List Expr) → execAll children nodes = .ok (growAll children nodes)
  | [] => rfl
  | node :: nodes => by
    simp only [execAll, exec_eq children node, bind, Except.bind]
    exact execAll_eq _ nodes

end

theorem trees_eq (nodes : List Expr) : trees nodes = nodes.map tree := by
  induction nodes with
  | nil => rfl
  | cons node nodes ih => simp [trees, ih]

theorem grow_item {e : Expr} (h : e.IsItem) (children : List Node) :
    e.grow children = children ++ [e.tree] := by
  cases e with
  | monitorItem => rfl
  | lastNtimesFailure => rfl
  | opEqAll => exact h.elim
  | opAnd => exact h.elim

theorem growAll_items {nodes : List Expr} (h : ∀ x ∈ nodes, x.IsItem) (children : List Node) :
    growAll children nodes = children ++ trees nodes := by
  induction nodes generalizing children with
  | nil => simp [growAll, trees]
  | cons node nodes ih =>
    simp only [growAll, trees]
    rw [grow_item (h node (by simp)), ih fun x hx => h x (by simp [hx])]
    simp

theorem length_grow (children : List Node) (e : Expr) :
    (e.grow children).length ≤ children.length + 1 ∧
      (¬ e.IsItem → (e.grow children).length = 1) := by
  cases e with
  | monitorItem => simp [grow, insertNode, IsItem]
  | lastNtimesFailure => simp [grow, insertNode, IsItem]
  | opEqAll => simp [grow, stackNode, insertNode]
  | opAnd => simp [grow, stackNode, insertNode]

theorem length_growAll_le (children : List Node) (nodes : List Expr) :
    (growAll children nodes).length ≤ children.length + nodes.length := by
  induction nodes generalizing children with
  | nil => simp [growAll]
  | cons node nodes ih =>
    have h := ih (node.grow children)
    have hone := (length_grow children node).1
    simp only [growAll, List.length_cons]
    omega

/-- After something else an operator takes away a node that is missing then. -/
theorem items_of_length {children : List Node} {nodes : List Expr} (hne : children ≠ [])
    (h : (growAll children nodes).length = children.length + nodes.length) :
    ∀ x ∈ nodes, x.IsItem := by
  induction nodes generalizing children with
  | nil => simp
  | cons node nodes ih =>
    have hle := length_growAll_le (node.grow children) nodes
    have hpos := List.length_pos_iff.mpr hne
    simp only [growAll, List.length_cons] at h
    by_cases hitem : node.IsItem
    · rw [grow_item hitem] at h
      have hlength : (growAll (children ++ [node.tree]) nodes).length =
          (children ++ [node.tree]).length + nodes.length := by
        simp only [List.length_append, List.length_singleton]
        omega
      have hrest := ih (by simp) hlength
      simpa [hitem] using hrest
    · have hone := (length_grow children node).2 hitem
      omega

theorem grow_operands_iff {node : Expr} {nodes : List Expr} {t : Node}
    (hnode : node.grow [] = [t]) (hone : t = node.tree ↔ node.Straight) :
    growAll (node.grow []) nodes = node.tree :: trees nodes ↔
      node.Straight ∧ ∀ x ∈ nodes, x.IsItem := by
  rw [hnode]
  constructor
  · intro h
    have hlength : (growAll [t] nodes).length = [t].length + nodes.length := by
      rw [h, trees_eq]
      simp only [List.length_cons, List.length_map, List.length_nil]
      omega
    have hitems := items_of_length (List.cons_ne_nil t []) hlength
    rw [growAll_items hitems] at h
    exact ⟨hone.mp (by simpa using (List.cons.inj h).1), hitems⟩
  · rintro ⟨hstraight, hitems⟩
    rw [growAll_items hitems, hone.mpr hstraight]
    rfl

theorem grow_root (e : Expr) : ∃ t, e.grow [] = [t] := by
  cases e with
  | monitorItem => exact ⟨_, rfl⟩
  | lastNtimesFailure => exact ⟨_, rfl⟩
  | opEqAll => exact ⟨_, rfl⟩
  | opAnd => exact ⟨_, rfl⟩

/-- The tree is the one of the nested calls just for straight expressions. -/
theorem grow_iff : (e : Expr) → (e.grow [] = [e.tree] ↔ e.Straight)
  | .monitorItem _ => iff_of_true rfl trivial
  | .lastNtimesFailure _ _ _ => iff_of_true rfl trivial
  | .opEqAll targetValue node nodes => by
    obtain ⟨t, ht⟩ := grow_root node
    have hone := grow_iff node
    rw [ht] at hone
    simp only [grow, stackNode, insertNode, tree, Straight, List.nil_append, List.cons.injEq,
      Node.mk.injEq, true_and, and_true]
    exact grow_operands_iff ht (by simpa using hone)
  | .opAnd node nodes => by
    obtain ⟨t, ht⟩ := grow_root node
    have hone := grow_iff node
    rw [ht] at hone
    simp only [grow, stackNode, insertNode, tree, Straight, List.nil_append, List.cons.injEq,
      Node.mk.injEq, true_and, and_true]
    exact grow_operands_iff ht (by simpa using hone)

theorem parseDsl_iff (e : Expr) : e.parseDsl = .ok [e.tree] ↔ e.Straight := by
  rw [parseDsl, exec_eq, Except.ok.injEq]
  exact grow_iff e

end Expr

end HaManager

end WakameVdc
