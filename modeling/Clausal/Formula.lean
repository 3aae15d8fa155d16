import Clausal.Distinct
import Clausal.Event
import Clausal.Literal

namespace Clausal

structure Formula (V : Type) where
  clauses : List (Clause V)
  vars : List V
  declared : List V

variable {V : Type} [BEq V]

/-- The distinct variables of some clauses, in order of first occurrence. -/
def variablesOf (clauses : List (Clause V)) : List V :=
  distinct (clauses.flatten.map Literal.var)

def Occurs (clauses : List (Clause V)) (v : V) : Prop :=
  ∃ c ∈ clauses, ∃ l ∈ c, (l.var == v) = true

instance (clauses : List (Clause V)) (v : V) : Decidable (Occurs clauses v) :=
  inferInstanceAs (Decidable (∃ c ∈ clauses, ∃ l ∈ c, (l.var == v) = true))

theorem Occurs.of_sublist {clauses larger : List (Clause V)} {v : V} (h : Occurs clauses v)
    (sub : clauses.Sublist larger) : Occurs larger v := by
  obtain ⟨c, hc, hl⟩ := h
  exact ⟨c, sub.mem hc, hl⟩

theorem variablesOf_contains [EquivBEq V] {clauses : List (Clause V)} {v : V} :
    (variablesOf clauses).contains v = true ↔ Occurs clauses v := by
  rw [variablesOf, contains_distinct, List.contains_iff_exists_mem_beq]
  simp only [List.mem_map, List.mem_flatten]
  constructor
  · rintro ⟨_, ⟨l, ⟨c, hc, hl⟩, rfl⟩, hv⟩
    exact ⟨c, hc, l, hl, BEq.symm hv⟩
  · rintro ⟨c, hc, l, hl, hv⟩
    exact ⟨l.var, ⟨l, ⟨c, hc, hl⟩, rfl⟩, BEq.symm hv⟩

theorem occurs_of_mem_variablesOf [EquivBEq V] {clauses : List (Clause V)} {v : V}
    (h : v ∈ variablesOf clauses) : Occurs clauses v :=
  variablesOf_contains.mp (contains_of_mem h)

theorem occurs_map_distinct [EquivBEq V] {clauses : List (Clause V)} {v : V} :
    Occurs (clauses.map distinct) v ↔ Occurs clauses v := by
  constructor
  · rintro ⟨d, hd, l, hl, hv⟩
    obtain ⟨c, hc, rfl⟩ := List.mem_map.mp hd
    exact ⟨c, hc, l, (distinct_sublist c).mem hl, hv⟩
  · rintro ⟨c, hc, l, hl, hv⟩
    obtain ⟨k, hk, same⟩ := exists_mem_distinct hl
    rw [Literal.beq_eq, Bool.and_eq_true] at same
    exact ⟨distinct c, List.mem_map.mpr ⟨c, hc, rfl⟩, k, hk, BEq.trans (BEq.symm same.1) hv⟩

theorem variablesOf_cons [EquivBEq V] (c : Clause V) (clauses : List (Clause V)) :
    variablesOf (c :: clauses) = distinct (c.map Literal.var) ++
      (variablesOf clauses).filter (fun v => !(c.map Literal.var).contains v) := by
  rw [variablesOf, List.flatten_cons, List.map_append, distinct_append, variablesOf]

theorem variablesOf_map_distinct [EquivBEq V] (clauses : List (Clause V)) :
    variablesOf (clauses.map distinct) = variablesOf clauses := by
  induction clauses with
  | nil => rfl
  | cons c clauses ih =>
    have sameVar {k l : Literal V} (h : (k == l) = true) : (k.var == l.var) = true := by
      rw [Literal.beq_eq, Bool.and_eq_true] at h
      exact h.1
    have first : distinct ((distinct c).map Literal.var) = distinct (c.map Literal.var) :=
      distinct_map_distinct sameVar c
    rw [List.map_cons, variablesOf_cons, variablesOf_cons, first, ih]
    congr 1
    apply List.filter_congr
    intro v _
    rw [← contains_distinct, first, contains_distinct]

namespace Formula

def freeVariables (f : Formula V) : List V :=
  variablesOf f.clauses

/-- Drops the listed variables that occur no more and appends the ones that are not listed. -/
def reconcile (f : Formula V) : Formula V :=
  let present := f.freeVariables
  let kept := f.vars.filter present.contains
  { f with vars := kept ++ present.filter (fun v => !kept.contains v) }

/-- The given variables without repetition, or else those of the clauses, and with them the
variables that occur without being given. -/
def listed (clauses : List (Clause V)) : Option (List V) → List V
  | none => variablesOf clauses
  | some given => distinct given ++ (variablesOf clauses).filter (fun v => !given.contains v)

def undeclared (clauses : List (Clause V)) : Option (List V) → List V
  | none => []
  | some given => (variablesOf clauses).filter (fun v => !given.contains v)

/-- What is declared comes first; a variable that is only listed is declared after it. -/
def declare (listed : List V) : Option (List V) → List V
  | none => listed
  | some given => distinct given ++ listed.filter (fun v => !given.contains v)

def build (clauses : List (Clause V)) (vars declared : Option (List V)) : Formula V :=
  let listed := listed clauses vars
  reconcile { clauses := clauses, vars := listed, declared := declare listed declared }

def buildReport (clauses : List (Clause V)) (vars : Option (List V)) : List (Event V) :=
  Event.listing .undeclared (undeclared clauses vars)

def copy (f : Formula V) : Formula V :=
  build f.clauses (some f.vars) (some f.declared)

def copyReport (f : Formula V) : List (Event V) :=
  buildReport f.clauses (some f.vars)

/-- Repeated literals are dropped before a formula is built. -/
def ofClauses (clauses : List (Clause V)) (vars : Option (List V)) : Formula V :=
  build (clauses.map distinct) vars none

def hasEmptyClause (f : Formula V) : Bool :=
  f.clauses.any List.isEmpty

/-- Adds a clause that asks for one literal. The list of variables stays as it is. -/
def withUnit (f : Formula V) (l : Literal V) : Formula V :=
  { f with clauses := f.clauses ++ [[l]] }

def sameClauses (f g : Formula V) : Bool :=
  f.clauses == g.clauses

/-- The listed variables all occur. -/
def Grounded (f : Formula V) : Prop :=
  ∀ v ∈ f.vars, Occurs f.clauses v

theorem grounded_reconcile [EquivBEq V] (f : Formula V) : f.reconcile.Grounded := by
  intro v hv
  rcases List.mem_append.mp hv with h | h
  · exact variablesOf_contains.mp (List.mem_filter.mp h).2
  · exact occurs_of_mem_variablesOf (List.mem_filter.mp h).1

theorem grounded_copy [EquivBEq V] (f : Formula V) : f.copy.Grounded :=
  grounded_reconcile _

end Formula
end Clausal
