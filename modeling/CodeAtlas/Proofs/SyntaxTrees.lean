import CodeAtlas.Source.Stmt

/-!
# Equality of syntax trees

Whether two syntax trees are the same can be computed, so that what the parser makes of a text can
be compared with a tree that is written out. Expressions have expressions in lists and in optional
places, and a statement has a block of statements, so the two trees are compared together with what
they are nested in.

Different kinds of nodes are told apart in one case at the end (`Expr.same`, `Stmt.same`). That
trees which are found to be the same are equal follows the recursion of the comparison
(`Expr.eq_of_same`), where nothing is left to show in this last case. That a tree is found to be the
same as itself is an induction on the tree (`Expr.same_self`).
-/

namespace CodeAtlas

namespace Expr

mutual

/-- Whether two expressions are the same, node by node. -/
def same : Expr → Expr → Bool
  | name id, name id' => id = id'
  | member t object id, member t' object' id' => t = t' && same object object' && id = id'
  | call t e es, call t' e' es' => t = t' && same e e' && sameList es es'
  | subscript t e es, subscript t' e' es' => t = t' && same e e' && sameList es es'
  | string t es, string t' es' => t = t' && sameList es es'
  | literal t, literal t' => t = t'
  | concat t es, concat t' es' => t = t' && sameList es es'
  | number t integral, number t' integral' => t = t' && integral = integral'
  | truth value, truth value' => value = value'
  | null, null => true
  | display t shape es, display t' shape' es' => t = t' && shape = shape' && sameList es es'
  | comprehension t shape es, comprehension t' shape' es' =>
    t = t' && shape = shape' && sameList es es'
  | parens t es, parens t' es' => t = t' && sameList es es'
  | binary t l op r, binary t' l' op' r' => t = t' && same l l' && op = op' && same r r'
  | keyword t id e, keyword t' id' e' => t = t' && id = id' && same e e'
  | assign t l hint r, assign t' l' hint' r' =>
    t = t' && same l l' && sameOption hint hint' && sameOption r r'
  | augment t l op r, augment t' l' op' r' => t = t' && same l l' && op = op' && same r r'
  | comment t, comment t' => t = t'
  | starred t e, starred t' e' => t = t' && same e e'
  | sequence t es, sequence t' es' => t = t' && sameList es es'
  | other t es, other t' es' => t = t' && sameList es es'
  | _, _ => false

/-- Whether two sequences of expressions are the same. -/
def sameList : List Expr → List Expr → Bool
  | [], [] => true
  | e :: es, e' :: es' => same e e' && sameList es es'
  | _, _ => false

/-- Whether two expressions that may be absent are the same. -/
def sameOption : Option Expr → Option Expr → Bool
  | none, none => true
  | some e, some e' => same e e'
  | _, _ => false

end

/-- Expressions that are found to be the same are equal, and so are lists and optional ones. -/
theorem eq_of_same :
    (∀ a b, same a b = true → a = b) ∧ (∀ a b, sameOption a b = true → a = b) ∧
      ∀ a b, sameList a b = true → a = b := by
  apply same.mutual_induct
  -- nodes of different kinds are not found to be the same
  case case22 | case25 | case28 =>
    intros
    simp_all only [same, sameOption, sameList, Bool.false_eq_true]
  all_goals
    simp only [same, sameOption, sameList, Bool.and_eq_true, decide_eq_true_eq]
    grind only

mutual

/-- An expression is found to be the same as itself. -/
theorem same_self : (e : Expr) → same e e = true
  | name _ | literal _ | comment _ | number .. | truth _ | null => by simp [same]
  | member _ e _ | keyword _ _ e | starred _ e => by simp [same, same_self e]
  | call _ e es | subscript _ e es => by simp [same, same_self e, sameList_self es]
  | string _ es | concat _ es | display _ _ es | comprehension _ _ es | parens _ es
  | sequence _ es | other _ es => by simp [same, sameList_self es]
  | binary _ l _ r | augment _ l _ r => by simp [same, same_self l, same_self r]
  | assign _ l hint r => by simp [same, same_self l, sameOption_self hint, sameOption_self r]

theorem sameList_self : (es : List Expr) → sameList es es = true
  | [] => by rw [sameList]
  | e :: es => by rw [sameList, same_self e, sameList_self es, Bool.and_self]

theorem sameOption_self : (e : Option Expr) → sameOption e e = true
  | none => by rw [sameOption]
  | some e => by rw [sameOption, same_self e]

end

instance : DecidableEq Expr := fun a b ↦
  decidable_of_iff (same a b = true) ⟨eq_of_same.1 a b, fun h ↦ h ▸ same_self a⟩

end Expr

deriving instance DecidableEq for Param, FunctionHead, ClassHead

namespace Stmt

mutual

/-- Whether two statements are the same, node by node. -/
def same : Stmt → Stmt → Bool
  | simple es, simple es' => es = es'
  | importModules clauses, importModules clauses' => clauses = clauses'
  | importFrom source, importFrom source' => source = source'
  | compound head body, compound head' body' => head = head' && sameBlock body body'
  | classDef head body, classDef head' body' => head = head' && sameBlock body body'
  | funcDef head body, funcDef head' body' => head = head' && sameBlock body body'
  | _, _ => false

/-- Whether two blocks are the same. -/
def sameBlock : List Stmt → List Stmt → Bool
  | [], [] => true
  | s :: block, s' :: block' => same s s' && sameBlock block block'
  | _, _ => false

end

/-- Statements that are found to be the same are equal, and so are blocks. -/
theorem eq_of_same :
    (∀ a b, same a b = true → a = b) ∧ ∀ a b, sameBlock a b = true → a = b := by
  apply same.mutual_induct
  case case7 | case10 =>
    intros
    simp_all only [same, sameBlock, Bool.false_eq_true]
  all_goals
    simp only [same, sameBlock, Bool.and_eq_true, decide_eq_true_eq]
    grind only

mutual

/-- A statement is found to be the same as itself. -/
theorem same_self : (s : Stmt) → same s s = true
  | simple _ | importModules _ | importFrom _ => by simp [same]
  | compound _ body | classDef _ body | funcDef _ body => by simp [same, sameBlock_self body]

theorem sameBlock_self : (block : List Stmt) → sameBlock block block = true
  | [] => by rw [sameBlock]
  | s :: block => by rw [sameBlock, same_self s, sameBlock_self block, Bool.and_self]

end

instance : DecidableEq Stmt := fun a b ↦
  decidable_of_iff (same a b = true) ⟨eq_of_same.1 a b, fun h ↦ h ▸ same_self a⟩

end Stmt

end CodeAtlas
