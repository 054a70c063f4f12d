/- # Proviso.Proofs.Expr.Grouping -- where a run of operands is split

A chain is grown one operator at a time, each going below the looser ones on the right edge.  Said of
the whole run at once: the last of the loosest operators is at the root, and what stands before it
and behind it is grouped in the same way (`Chain.grow_split`).

The same trees come of precedence climbing: an operand is read, and then further operators as long as
they bind tighter than a bound, each with an operand that is read with the level of the operator as
the bound (`Chain.climb_all`). -/
import Mathlib.Data.List.TakeWhile
import Proviso.Expr.Chain

namespace Proviso

set_option autoImplicit false

theorem BinaryOperator.level_pos (op : BinaryOperator) : 0 < op.level := by
  rcases op with op | op | op <;> cases op <;> decide

namespace Chain

/-! ## Growing -/

/-- The chain of an operand and further operators and operands. -/
def grow (chain : Chain) (links : List (BinaryOperator × Expr)) : Chain :=
  links.foldl (fun chain link => chain.extend link.1 link.2) chain

theorem grow_append (chain : Chain) (front back : List (BinaryOperator × Expr)) :
    chain.grow (front ++ back) = (chain.grow front).grow back :=
  List.foldl_append

/-- The level of the operator at the root is at least so much, if there is an operator. -/
def AtLeast (level : Nat) : Chain → Prop
  | .operand _ => True
  | .join _ root _ => level ≤ root.level

/-- An operator that binds no tighter than the one at the root goes above it. -/
theorem extend_above {chain : Chain} {op : BinaryOperator} (loose : chain.AtLeast op.level)
    (expr : Expr) : chain.extend op expr = .join chain op (.operand expr) := by
  cases chain with
  | operand first => rfl
  | join left root right =>
    have not_tighter : ¬ root.level < op.level := Nat.not_lt.mpr loose
    rw [extend, if_neg not_tighter]

/-- An operator that binds tighter than the one at the root goes to the right of it. -/
theorem extend_right (left right : Chain) {root op : BinaryOperator} (tight : root.level < op.level)
    (expr : Expr) :
    (join left root right).extend op expr = .join left root (right.extend op expr) := by
  rw [extend, if_pos tight]

theorem AtLeast.extend {level : Nat} {chain : Chain} (tight : chain.AtLeast level)
    {op : BinaryOperator} (also_tight : level ≤ op.level) (expr : Expr) :
    (chain.extend op expr).AtLeast level := by
  cases chain with
  | operand first => exact also_tight
  | join left root right =>
    unfold Chain.extend
    split
    · exact tight
    · exact also_tight

theorem AtLeast.grow {level : Nat} {chain : Chain} (tight : chain.AtLeast level)
    {links : List (BinaryOperator × Expr)} (also_tight : ∀ link ∈ links, level ≤ link.1.level) :
    (chain.grow links).AtLeast level := by
  induction links generalizing chain with
  | nil => exact tight
  | cons link rest ih =>
    obtain ⟨first, others⟩ := List.forall_mem_cons.mp also_tight
    exact ih (tight.extend first link.2) others

/-- Operators that all bind tighter than the one at the root go to the right of it. -/
theorem grow_right (left right : Chain) (root : BinaryOperator)
    {links : List (BinaryOperator × Expr)} (tight : ∀ link ∈ links, root.level < link.1.level) :
    (join left root right).grow links = .join left root (right.grow links) := by
  induction links generalizing right with
  | nil => rfl
  | cons link rest ih =>
    obtain ⟨first, others⟩ := List.forall_mem_cons.mp tight
    show ((join left root right).extend link.1 link.2).grow rest = _
    rw [extend_right left right first, ih _ others]
    rfl

/-- **The last of the loosest operators is at the root.**  Where no operator before it binds looser,
and all behind it bind tighter, what stands before it is on its left and what stands behind it on its
right. -/
theorem grow_split (first : Expr) {before after : List (BinaryOperator × Expr)}
    {op : BinaryOperator} (expr : Expr) (no_looser : ∀ link ∈ before, op.level ≤ link.1.level)
    (tighter : ∀ link ∈ after, op.level < link.1.level) :
    (operand first).grow (before ++ (op, expr) :: after) =
      .join ((operand first).grow before) op ((operand expr).grow after) := by
  have alone : (operand first).AtLeast op.level := trivial
  have at_least := alone.grow no_looser
  rw [grow_append]
  show (((operand first).grow before).extend op expr).grow after = _
  rw [extend_above at_least, grow_right _ _ _ tighter]

/-- Some operator is the last of the loosest. -/
theorem exists_loosest {α : Type} (link : BinaryOperator × α) (rest : List (BinaryOperator × α)) :
    ∃ before op operand after, link :: rest = before ++ (op, operand) :: after ∧
      (∀ other ∈ before, op.level ≤ other.1.level) ∧
      ∀ other ∈ after, op.level < other.1.level := by
  induction rest generalizing link with
  | nil => exact ⟨[], link.1, link.2, [], rfl, by simp, by simp⟩
  | cons next rest ih =>
    obtain ⟨before, op, operand, after, split, no_looser, tighter⟩ := ih next
    by_cases loose : op.level ≤ link.1.level
    · refine ⟨link :: before, op, operand, after, by rw [split]; rfl, ?_, tighter⟩
      exact List.forall_mem_cons.mpr ⟨loose, no_looser⟩
    · refine ⟨[], link.1, link.2, next :: rest, rfl, by simp, ?_⟩
      rw [split, List.forall_mem_append, List.forall_mem_cons]
      have tight := Nat.not_le.mp loose
      exact ⟨fun other listed => Nat.lt_of_lt_of_le tight (no_looser other listed), tight,
        fun other listed => Nat.lt_trans tight (tighter other listed)⟩

/-! ## Items -/

/-- The items of an operand with operators before it. -/
def operandItems (prefixes : List UnaryOperator) (expr : Expr) : List Item :=
  prefixes.map .unary ++ [.operand expr]

/-- The items of operators, each with an operand that may have operators before it. -/
def linkItems (links : List (BinaryOperator × List UnaryOperator × Expr)) : List Item :=
  links.flatMap fun link => .binary link.1 :: operandItems link.2.1 link.2.2

theorem applyPrefixes_operandItems (prefixes : List UnaryOperator) (expr : Expr)
    (rest : List Item) :
    applyPrefixes (operandItems prefixes expr ++ rest) =
      .operand (prefixes.foldr Expr.applyUnary expr) :: applyPrefixes rest := by
  induction prefixes with
  | nil => rfl
  | cons op prefixes ih =>
    show applyPrefixes (.unary op :: (operandItems prefixes expr ++ rest)) = _
    rw [applyPrefixes, ih]
    rfl

theorem applyPrefixes_linkItems (links : List (BinaryOperator × List UnaryOperator × Expr)) :
    applyPrefixes (linkItems links) = links.flatMap fun link =>
      [.binary link.1, .operand (link.2.1.foldr Expr.applyUnary link.2.2)] := by
  induction links with
  | nil => rfl
  | cons link rest ih =>
    show applyPrefixes (.binary link.1 :: (operandItems link.2.1 link.2.2 ++ linkItems rest)) = _
    rw [applyPrefixes, applyPrefixes_operandItems, ih]
    · rfl
    · simp

theorem extendAll?_eq (chain : Chain) (links : List (BinaryOperator × Expr)) :
    chain.extendAll? (links.flatMap fun link => [.binary link.1, .operand link.2]) =
      some (chain.grow links) := by
  induction links generalizing chain with
  | nil => rfl
  | cons link rest ih => exact ih _

/-- A run of operands with operators before and between them is grouped into a chain. -/
theorem ofItems?_eq (prefixes : List UnaryOperator) (expr : Expr)
    (links : List (BinaryOperator × List UnaryOperator × Expr)) :
    ofItems? (operandItems prefixes expr ++ linkItems links) =
      some ((operand (prefixes.foldr Expr.applyUnary expr)).grow
        (links.map fun link => (link.1, link.2.1.foldr Expr.applyUnary link.2.2))) := by
  unfold ofItems?
  rw [applyPrefixes_operandItems, applyPrefixes_linkItems]
  have same := extendAll?_eq (operand (prefixes.foldr Expr.applyUnary expr))
    (links.map fun link => (link.1, link.2.1.foldr Expr.applyUnary link.2.2))
  rw [List.flatMap_map] at same
  exact same

/-! ## Climbing -/

/-- Reads operators that bind tighter than a bound behind an operand, and leaves the rest.  The
operand of each is what is read behind it with its level as the bound. -/
def climb (bound : Nat) (left : Expr) (links : List (BinaryOperator × Expr)) :
    Expr × { rest : List (BinaryOperator × Expr) // rest.length ≤ links.length } :=
  match links with
  | [] => (left, ⟨[], Nat.le_refl _⟩)
  | (op, expr) :: others =>
    if bound < op.level then
      let right := climb op.level expr others
      let whole := climb bound (op.apply left right.1) right.2
      (whole.1, ⟨whole.2, Nat.le_succ_of_le (Nat.le_trans whole.2.2 right.2.2)⟩)
    else (left, ⟨(op, expr) :: others, Nat.le_refl _⟩)
termination_by links.length
decreasing_by
  · exact Nat.lt_succ_self _
  · exact Nat.lt_succ_of_le right.2.2

/-- What stands on the left of the root is not looked into again. -/
theorem toExpr_grow_left {left left' : Chain} (same : left.toExpr = left'.toExpr)
    (root : BinaryOperator) (right : Chain) (links : List (BinaryOperator × Expr)) :
    ((join left root right).grow links).toExpr = ((join left' root right).grow links).toExpr := by
  induction links generalizing left left' root right with
  | nil => exact congrArg (root.apply · right.toExpr) same
  | cons link rest ih =>
    show (((join left root right).extend link.1 link.2).grow rest).toExpr =
      (((join left' root right).extend link.1 link.2).grow rest).toExpr
    unfold Chain.extend
    have above : (join left root right).toExpr = (join left' root right).toExpr :=
      congrArg (root.apply · right.toExpr) same
    split
    · exact ih same root _
    · exact ih above link.1 _

/-- A chain can be taken for an operand where the next operator goes above it. -/
theorem toExpr_grow_operand (chain : Chain) {links : List (BinaryOperator × Expr)}
    (loose : ∀ link ∈ links.head?, chain.AtLeast link.1.level) :
    (chain.grow links).toExpr = ((operand chain.toExpr).grow links).toExpr := by
  cases links with
  | nil => rfl
  | cons link rest =>
    show ((chain.extend link.1 link.2).grow rest).toExpr =
      ((join (operand chain.toExpr) link.1 (operand link.2)).grow rest).toExpr
    rw [extend_above (loose link rfl)]
    have same : chain.toExpr = (operand chain.toExpr).toExpr := rfl
    exact toExpr_grow_left same link.1 _ rest

theorem takeWhile_of_imp {α : Type} {tight tighter : α → Bool}
    (imp : ∀ item, tighter item = true → tight item = true) (items : List α) :
    items.takeWhile tight =
        items.takeWhile tighter ++ (items.dropWhile tighter).takeWhile tight ∧
      items.dropWhile tight = (items.dropWhile tighter).dropWhile tight := by
  induction items with
  | nil => exact ⟨rfl, rfl⟩
  | cons item rest ih =>
    cases first : tighter item with
    | true => simp [first, imp item first, ih]
    | false => simp [first]

def tighterThan (bound : Nat) (link : BinaryOperator × Expr) : Bool := bound < link.1.level

/-- Climbing takes the operators up to the first that does not bind tighter than the bound, and groups
them as a growing chain does. -/
theorem climb_eq (bound : Nat) (left : Expr) (links : List (BinaryOperator × Expr)) :
    (climb bound left links).1 = ((operand left).grow (links.takeWhile (tighterThan bound))).toExpr ∧
      (climb bound left links).2.val = links.dropWhile (tighterThan bound) := by
  fun_induction climb bound left links with
  | case1 => exact ⟨rfl, rfl⟩
  | case2 bound left op expr others tight right whole right_ih whole_ih =>
    obtain ⟨right_eq, others_eq⟩ := right_ih
    obtain ⟨whole_eq, rest_eq⟩ := whole_ih
    have first : tighterThan bound (op, expr) = true := decide_eq_true tight
    have above_bound (link : BinaryOperator × Expr) (above : tighterThan op.level link = true) :
        tighterThan bound link = true :=
      decide_eq_true (Nat.lt_trans tight (of_decide_eq_true above))
    have inner_tighter : ∀ link ∈ others.takeWhile (tighterThan op.level),
        op.level < link.1.level := by
      intro link listed
      have above : tighterThan op.level link = true := List.mem_takeWhile_imp listed
      exact of_decide_eq_true above
    obtain ⟨taken_eq, dropped_eq⟩ := takeWhile_of_imp above_bound others
    have next_loose : ∀ link ∈ ((others.dropWhile (tighterThan op.level)).takeWhile
        (tighterThan bound)).head?, link.1.level ≤ op.level := by
      intro link next
      rw [List.head?_takeWhile, Option.mem_filter_iff] at next
      have not_tighter := List.head?_dropWhile_not (tighterThan op.level) others
      rw [next.1] at not_tighter
      have not_above : tighterThan op.level link = false := by simpa using not_tighter
      exact Nat.not_lt.mp (of_decide_eq_false not_above)
    refine ⟨?_, ?_⟩
    · show whole.1 = _
      rw [List.takeWhile_cons_of_pos first, taken_eq, whole_eq, others_eq, right_eq]
      show _ = ((join (operand left) op (operand expr)).grow (_ ++ _)).toExpr
      rw [grow_append, grow_right _ _ _ inner_tighter]
      exact (toExpr_grow_operand (join (operand left) op _) next_loose).symm
    · show whole.2.val = _
      rw [List.dropWhile_cons_of_pos first, dropped_eq, rest_eq, others_eq]
  | case3 bound left op expr others loose =>
    have not_first : ¬ tighterThan bound (op, expr) = true := by simpa [tighterThan] using loose
    rw [List.takeWhile_cons_of_neg not_first, List.dropWhile_cons_of_neg not_first]
    exact ⟨rfl, rfl⟩

/-- **A growing chain is what precedence climbing comes to.**  With a bound below all levels, climbing
reads all operators and groups them like the chain. -/
theorem climb_all (first : Expr) (links : List (BinaryOperator × Expr)) :
    (climb 0 first links).1 = ((operand first).grow links).toExpr ∧
      (climb 0 first links).2.val = [] := by
  obtain ⟨expr_eq, rest_eq⟩ := climb_eq 0 first links
  have all_tighter : ∀ link ∈ links, tighterThan 0 link = true := fun link _ =>
    decide_eq_true link.1.level_pos
  rw [List.takeWhile_eq_self_iff.mpr all_tighter] at expr_eq
  rw [List.dropWhile_eq_nil_iff.mpr all_tighter] at rest_eq
  exact ⟨expr_eq, rest_eq⟩

end Chain

end Proviso
