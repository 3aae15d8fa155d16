import Mathlib.Data.List.Basic
import Mathlib.Logic.ExistsUnique
import Mathlib.Tactic.Choose
import Clausal.Proofs.SignedClauses

namespace Clausal.Coloring

def ends (edge : Nat × Nat) : List Int :=
  [(edge.1 : Int), (edge.2 : Int)]

def IsEnd (edges : List (Nat × Nat)) (v : Nat) : Prop :=
  ∃ e ∈ edges, v = e.1 ∨ v = e.2

/-- Every vertex has exactly one colour, and the ends of an edge have different ones. -/
structure Colors (edges : List (Nat × Nat)) (colors : Nat) (has : Nat → Nat → Prop) : Prop where
  one : ∀ v, IsEnd edges v → ∃! c, c < colors ∧ has v c
  differ : ∀ e ∈ edges, ∀ c < colors, ∀ d < colors, has e.1 c → has e.2 d → c ≠ d

/-- A proper colouring of the vertices. -/
structure Proper (edges : List (Nat × Nat)) (colors : Nat) (color : Nat → Nat) : Prop where
  below : ∀ v, IsEnd edges v → color v < colors
  differ : ∀ e ∈ edges, color e.1 ≠ color e.2

variable {edges : List (Nat × Nat)} {colors : Nat}

theorem isEnd_fst {e : Nat × Nat} (h : e ∈ edges) : IsEnd edges e.1 :=
  ⟨e, h, .inl rfl⟩

theorem isEnd_snd {e : Nat × Nat} (h : e ∈ edges) : IsEnd edges e.2 :=
  ⟨e, h, .inr rfl⟩

theorem Proper.to_colors {color : Nat → Nat} (h : Proper edges colors color) :
    Colors edges colors (fun v c => (color v == c) = true) where
  one v hv := ⟨color v, ⟨h.below v hv, BEq.rfl⟩, fun _ hc => (eq_of_beq hc.2).symm⟩
  differ e he c _ d _ hc hd := by
    rw [← eq_of_beq hc, ← eq_of_beq hd]
    exact h.differ e he

theorem Colors.exists_proper {has : Nat → Nat → Prop} (h : Colors edges colors has) :
    ∃ color, Proper edges colors color := by
  have colored (v : Nat) : ∃ c, IsEnd edges v → c < colors ∧ has v c := by
    by_cases hv : IsEnd edges v
    · obtain ⟨c, hc, -⟩ := h.one v hv
      exact ⟨c, fun _ => hc⟩
    · exact ⟨0, fun h => absurd h hv⟩
  choose color right using colored
  refine ⟨color, fun v hv => (right v hv).1, ?_⟩
  intro e he
  obtain ⟨below, first⟩ := right e.1 (isEnd_fst he)
  obtain ⟨below', second⟩ := right e.2 (isEnd_snd he)
  exact h.differ e he _ below _ below' first second

theorem Colors.congr {has other : Nat → Nat → Prop}
    (same : ∀ v, ∀ c < colors, has v c ↔ other v c) (h : Colors edges colors has) :
    Colors edges colors other where
  one v hv := by
    obtain ⟨c, ⟨below, hc⟩, only⟩ := h.one v hv
    refine ⟨c, ⟨below, (same v c below).mp hc⟩, ?_⟩
    rintro d ⟨below', hd⟩
    exact only d ⟨below', (same v d below').mpr hd⟩
  differ e he c hc d hd first second :=
    h.differ e he c hc d hd ((same _ c hc).mpr first) ((same _ d hd).mpr second)

theorem number_natCast (colors v : Nat) : number colors v = Pigeonhole.number colors v := by
  funext c
  simp [number, Pigeonhole.number]

theorem mem_insertVertex {v w : Int} {ws : List Int} :
    v ∈ insertVertex w ws ↔ v = w ∨ v ∈ ws := by
  induction ws with
  | nil => simp [insertVertex]
  | cons u us ih =>
    rw [insertVertex]
    split
    · exact List.mem_cons
    · split
      · rename_i same
        simp [same]
      · simp only [List.mem_cons, ih]
        exact or_left_comm

theorem mem_vertices {v : Int} {edges : List (List Int)} :
    v ∈ vertices edges ↔ ∃ e ∈ edges, v ∈ e := by
  have inserted (ws : List Int) : v ∈ ws.foldr insertVertex [] ↔ v ∈ ws := by
    induction ws with
    | nil => rfl
    | cons w ws ih => rw [List.foldr_cons, mem_insertVertex, ih, List.mem_cons]
  rw [vertices, inserted, List.mem_flatten]

section Edges

variable {edges : List (List Int)} {colors : Nat}

def unshared (colors : Nat) (vs : List Int) : List (List Int) :=
  (List.range colors).map fun c => vs.map fun v => -number colors v c

/-- What is asked of the vertices, and of the ends of each edge. -/
def asked (edges : List (List Int)) (colors : Nat) : List (List Int) :=
  (vertices edges).flatMap (vertexClauses colors) ++ edges.flatMap (unshared colors)

theorem edgeClauses_of_two {e : List Int} (two : e.length = 2) :
    edgeClauses colors e = .ok (unshared colors e) := by
  obtain ⟨v, w, rfl⟩ := List.length_eq_two.mp two
  rfl

theorem clauses_of_two (two : ∀ e ∈ edges, e.length = 2) :
    clauses edges colors = .ok (asked edges colors) := by
  rw [clauses, mapM_ok fun e he => edgeClauses_of_two (two e he), asked,
    List.flatMap_def (f := unshared colors)]
  rfl

theorem ofInput_items (edges : List (List Int)) (colors : Int) :
    ofInput (.items (edges.map .items)) colors = formula edges colors := by
  have read : edgesOfInput (.items (edges.map .items)) = .ok edges := by
    show (edges.map Listing.items).mapM (fun edge => edge.toList fun _ => (0 : Int)) = _
    rw [List.mapM_map]
    exact (mapM_ok fun _ _ => rfl).trans (congrArg Except.ok (List.map_id edges))
  rw [ofInput, read]

end Edges

theorem mem_vertices_ends {v : Int} :
    v ∈ vertices (edges.map ends) ↔ ∃ w : Nat, IsEnd edges w ∧ v = w := by
  rw [mem_vertices]
  constructor
  · rintro ⟨_, given, hv⟩
    obtain ⟨e, he, rfl⟩ := List.mem_map.mp given
    rcases List.mem_cons.mp hv with rfl | hv
    · exact ⟨e.1, isEnd_fst he, rfl⟩
    · exact ⟨e.2, isEnd_snd he, List.mem_singleton.mp hv⟩
  · rintro ⟨w, ⟨e, he, rfl | rfl⟩, rfl⟩
    · exact ⟨_, List.mem_map_of_mem he, by simp [ends]⟩
    · exact ⟨_, List.mem_map_of_mem he, by simp [ends]⟩

def apart (colors : Nat) (e : Nat × Nat) : List (List Int) :=
  (List.range colors).map fun c =>
    [-Pigeonhole.number colors e.1 c, -Pigeonhole.number colors e.2 c]

def graphClauses (edges : List (Nat × Nat)) (colors : Nat) : List (List Int) :=
  (vertices (edges.map ends)).flatMap (vertexClauses colors) ++ edges.flatMap (apart colors)

theorem clauses_ends (edges : List (Nat × Nat)) (colors : Nat) :
    clauses (edges.map ends) colors = .ok (graphClauses edges colors) := by
  have two : ∀ e ∈ edges.map ends, e.length = 2 := by
    intro _ he
    obtain ⟨e, -, rfl⟩ := List.mem_map.mp he
    rfl
  have each (e : Nat × Nat) : unshared colors (ends e) = apart colors e := by
    simp [unshared, apart, ends, number_natCast]
  rw [clauses_of_two two, asked, graphClauses, List.flatMap_map]
  simp only [each]

theorem zero_not_mem_graphClauses (edges : List (Nat × Nat)) (colors : Nat) :
    ∀ c ∈ graphClauses edges colors, 0 ∉ c := by
  intro c hc
  rcases List.mem_append.mp hc with hc | hc
  · obtain ⟨v, hv, hc⟩ := List.mem_flatMap.mp hc
    obtain ⟨w, -, rfl⟩ := mem_vertices_ends.mp hv
    rw [vertexClauses, number_natCast] at hc
    rcases List.mem_cons.mp hc with rfl | hc
    · exact Pigeonhole.zero_not_mem_row
    · obtain ⟨pair, -, rfl⟩ := List.mem_map.mp hc
      exact Pigeonhole.zero_not_mem_either
  · obtain ⟨e, -, hc⟩ := List.mem_flatMap.mp hc
    obtain ⟨d, -, rfl⟩ := List.mem_map.mp hc
    exact Pigeonhole.zero_not_mem_either

section Clauses

variable {a : Valuation Variable}

theorem makes_vertexClauses {v : Nat} :
    (∀ c ∈ vertexClauses colors v, ∃ n ∈ c, a.Makes n) ↔ ∃! c, c < colors ∧ a.Marks colors v c := by
  have once := Pigeonhole.forall_pairsBelow (n := colors) (x := fun c => a.Marks colors v c)
  simp only [vertexClauses, number_natCast, List.forall_mem_cons, List.forall_mem_map,
    Valuation.makes_row, Valuation.makes_either, once]
  constructor
  · rintro ⟨⟨c, below, hc⟩, once⟩
    exact ⟨c, ⟨below, hc⟩, fun d hd => once d hd.1 c below hd.2 hc⟩
  · rintro ⟨c, hc, only⟩
    exact ⟨⟨c, hc⟩, fun d hd e he md me => (only d ⟨hd, md⟩).trans (only e ⟨he, me⟩).symm⟩

theorem makes_apart {e : Nat × Nat} :
    (∀ c ∈ apart colors e, ∃ n ∈ c, a.Makes n) ↔
      ∀ c < colors, ∀ d < colors, a.Marks colors e.1 c → a.Marks colors e.2 d → c ≠ d := by
  simp only [apart, List.forall_mem_map, List.mem_range, Valuation.makes_either]
  constructor
  · rintro never c hc d - first second rfl
    exact never c hc ⟨first, second⟩
  · intro differ c hc both
    exact differ c hc c hc both.1 both.2 rfl

/-- The clauses say of the true variables that they colour the graph. -/
theorem makes_graphClauses :
    (∀ c ∈ graphClauses edges colors, ∃ n ∈ c, a.Makes n) ↔
      Colors edges colors (a.Marks colors) := by
  have rows : (∀ c ∈ (vertices (edges.map ends)).flatMap (vertexClauses colors),
      ∃ n ∈ c, a.Makes n) ↔
      ∀ v, IsEnd edges v → ∃! c, c < colors ∧ a.Marks colors v c := by
    simp only [List.forall_mem_flatMap, mem_vertices_ends]
    constructor
    · intro h v hv
      exact makes_vertexClauses.mp (h v ⟨v, hv, rfl⟩)
    · rintro h _ ⟨v, hv, rfl⟩
      exact makes_vertexClauses.mpr (h v hv)
  rw [graphClauses, List.forall_mem_append, rows, List.forall_mem_flatMap]
  simp only [makes_apart]
  exact ⟨fun h => ⟨h.1, h.2⟩, fun h => ⟨h.one, h.differ⟩⟩

end Clauses

def given (edges : List (Nat × Nat)) : Listing (Listing Int) :=
  .items (edges.map fun e => .items (ends e))

theorem ofInput_given (edges : List (Nat × Nat)) (colors : Int) :
    ofInput (given edges) colors = formula (edges.map ends) colors := by
  have items : given edges = .items ((edges.map ends).map .items) := by
    rw [given, List.map_map]
    rfl
  rw [items, ofInput_items]

/-- The models of the formula are the valuations that colour the graph. -/
theorem formula_models (edges : List (Nat × Nat)) (colors : Nat) :
    ∃ f, (ofInput (given edges) colors).outcome = .ok f ∧ ∀ a : Valuation Variable,
      a.Satisfies f.clauses ↔ Colors edges colors (a.Marks colors) := by
  obtain ⟨f, built, models⟩ := Formula.ofSigned_models (zero_not_mem_graphClauses edges colors)
  refine ⟨f, ?_, fun a => (models a).trans makes_graphClauses⟩
  rw [ofInput_given, formula, Int.toNat_natCast, clauses_ends]
  exact built

/-- There is always a formula. An assignment that covers it makes it true exactly if its true
variables colour the graph, and there is such an assignment exactly if the graph has a proper
colouring. -/
theorem graph_colored (edges : List (Nat × Nat)) (colors : Nat) :
    ∃ f, (ofInput (given edges) colors).outcome = .ok f ∧
      (∀ pairs : Assignment Variable, pairs.Covers f.clauses →
        (f.evaluate pairs = .ok true ↔ Colors edges colors
          fun v c => pairs.LastIs (.number (v * colors + c + 1 : Nat)) true)) ∧
      ((∃ pairs : Assignment Variable, pairs.Covers f.clauses ∧ f.evaluate pairs = .ok true) ↔
        ∃ color, Proper edges colors color) := by
  obtain ⟨f, built, models⟩ := formula_models edges colors
  refine ⟨f, built, ?_, ?_⟩
  · intro pairs covers
    rw [Formula.evaluate_eq_true_iff covers, models]
    simp only [← Assignment.marks_valuation]
  · rw [f.exists_assignment_iff]
    constructor
    · rintro ⟨a, model⟩
      exact ((models a).mp model).exists_proper
    · rintro ⟨color, proper⟩
      refine ⟨.ofCells colors (fun v c => color v == c), (models _).mpr ?_⟩
      exact proper.to_colors.congr fun _ _ below => (Valuation.marks_ofCells below).symm

def painted : Assignment Variable :=
  [(.number 1, true), (.number 5, true), (.number 9, true), (.number 2, false), (.number 3, false),
    (.number 4, false), (.number 6, false), (.number 7, false), (.number 8, false)]

/-- A triangle with one edge given twice has a colouring in three colours; an edge from a vertex to
itself takes that away. -/
theorem triangle_graph_colored :
    (∃ f, (ofInput (given [(0, 1), (1, 2), (0, 2), (1, 0)]) (3 : Nat)).outcome = .ok f ∧
      painted.Covers f.clauses ∧ f.evaluate painted = .ok true ∧
      Colors [(0, 1), (1, 2), (0, 2), (1, 0)] 3
        fun v c => painted.LastIs (.number (v * 3 + c + 1 : Nat)) true) ∧
      ∃ f, (ofInput (given [(0, 1), (1, 1)]) (3 : Nat)).outcome = .ok f ∧
        ¬ ∃ pairs : Assignment Variable, pairs.Covers f.clauses ∧ f.evaluate pairs = .ok true := by
  obtain ⟨f, built, colored, -⟩ := graph_colored [(0, 1), (1, 2), (0, 2), (1, 0)] 3
  obtain ⟨g, built', -, colorable⟩ := graph_colored [(0, 1), (1, 1)] 3
  have covers : painted.Covers f.clauses := by
    obtain rfl := Except.ok.inj built
    decide
  have value : f.evaluate painted = .ok true := by
    obtain rfl := Except.ok.inj built
    rfl
  refine ⟨⟨f, built, covers, value, (colored painted covers).mp value⟩, g, built', ?_⟩
  rw [colorable]
  rintro ⟨color, proper⟩
  exact proper.differ (1, 1) (by decide) rfl

end Clausal.Coloring
