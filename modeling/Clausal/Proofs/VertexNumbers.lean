import Clausal.Proofs.Printing
import Clausal.Proofs.ProperColorings

namespace Clausal.Coloring

def cell (colors : Nat) (v : Int) (c : Nat) : Variable :=
  (Literal.signed (number colors v c)).var

/-- Each vertex and colour has its own variable. -/
def Unambiguous (vs : List Int) (colors : Nat) : Prop :=
  ∀ v ∈ vs, ∀ w ∈ vs, ∀ c < colors, ∀ d < colors,
    (cell colors v c == cell colors w d) = true → v = w ∧ c = d

section Numbers

variable {colors c d : Nat} {v w : Int}

theorem number_pos_iff (hc : c < colors) : 0 < number colors v c ↔ 0 ≤ v := by
  simp only [number]
  constructor
  · intro positive
    have above : -1 * (colors : Int) < v * colors := by omega
    have := Int.lt_of_mul_lt_mul_right above (by omega)
    omega
  · intro hv
    have := Int.mul_nonneg hv (Int.natCast_nonneg colors)
    omega

theorem number_eq_iff (hc : c < colors) (hd : d < colors) :
    number colors v c = number colors w d ↔ v = w ∧ c = d := by
  simp only [number]
  constructor
  · intro same
    have left : v * (colors : Int) < (w + 1) * colors := by
      rw [Int.add_mul]
      omega
    have right : w * (colors : Int) < (v + 1) * colors := by
      rw [Int.add_mul]
      omega
    have := Int.lt_of_mul_lt_mul_right left (by omega)
    have := Int.lt_of_mul_lt_mul_right right (by omega)
    obtain rfl : v = w := by omega
    exact ⟨rfl, by omega⟩
  · rintro ⟨rfl, rfl⟩
    rfl

/-- Two numbers add up to zero in two ways only: their vertices add up to -1 or to -2. -/
theorem number_eq_neg_iff (hc : c < colors) (hd : d < colors) :
    number colors v c = -number colors w d ↔
      (v + w = -1 ∧ c + d + 2 = colors) ∨ (v + w = -2 ∧ c + 1 = colors ∧ d + 1 = colors) := by
  have total : number colors v c + number colors w d = (v + w) * colors + (c + d + 2) := by
    rw [number, number, Int.add_mul]
    omega
  constructor
  · intro same
    have low : -3 * (colors : Int) < (v + w) * colors := by omega
    have high : (v + w) * (colors : Int) < 0 * colors := by omega
    have := Int.lt_of_mul_lt_mul_right low (by omega)
    have := Int.lt_of_mul_lt_mul_right high (by omega)
    rcases (by omega : v + w = -1 ∨ v + w = -2) with sum | sum
    · rw [sum] at total
      exact .inl ⟨sum, by omega⟩
    · rw [sum] at total
      exact .inr ⟨sum, by omega, by omega⟩
  · rintro (⟨sum, _⟩ | ⟨sum, _, _⟩)
    all_goals
      rw [sum] at total
      omega

/-- Zero is the last colour of the vertex -1. -/
theorem number_eq_zero_iff (hc : c < colors) :
    number colors v c = 0 ↔ v = -1 ∧ c + 1 = colors := by
  have twice : number colors v c = 0 ↔ number colors v c = -number colors v c := by omega
  rw [twice, number_eq_neg_iff hc hc]
  omega

theorem cell_beq_iff :
    (cell colors v c == cell colors w d) = true ↔
      number colors v c = number colors w d ∨ number colors v c = -number colors w d := by
  have named (n : Int) : (Literal.signed n).var = numbers.name n.natAbs := rfl
  rw [cell, cell, named, named, numbers.same, beq_iff_eq, Int.natCast_inj,
    Int.natAbs_eq_natAbs_iff]

/-- Vertices have variables of their own exactly if none below zero has one at its mirror image. -/
theorem unambiguous_iff {vs : List Int} (positive : 0 < colors) (absent : -1 ∉ vs) :
    Unambiguous vs colors ↔
      ∀ v ∈ vs, v < 0 → -v - 2 ∉ vs ∧ (colors = 1 ∨ -v - 1 ∉ vs) := by
  constructor
  · intro own v hv below
    refine ⟨?_, ?_⟩
    · intro mirror
      -- The two vertices share the variable of their last colours.
      have shared : (cell colors v (colors - 1) == cell colors (-v - 2) (colors - 1)) = true :=
        cell_beq_iff.mpr (.inr ((number_eq_neg_iff (by omega) (by omega)).mpr
          (.inr ⟨by omega, by omega, by omega⟩)))
      obtain ⟨same, -⟩ := own v hv _ mirror _ (by omega) _ (by omega) shared
      obtain rfl : v = -1 := by omega
      exact absent hv
    · by_cases one : colors = 1
      · exact .inl one
      · refine .inr fun mirror => ?_
        -- Here the first colour of the one meets the last but one of the other.
        have shared : (cell colors v 0 == cell colors (-v - 1) (colors - 2)) = true :=
          cell_beq_iff.mpr (.inr ((number_eq_neg_iff (by omega) (by omega)).mpr
            (.inl ⟨by omega, by omega⟩)))
        obtain ⟨same, -⟩ := own v hv _ mirror _ (by omega) _ (by omega) shared
        omega
  · intro apart v hv w hw c hc d hd shared
    have never {x y : Int} (hx : x ∈ vs) (hy : y ∈ vs) (below : x < 0)
        (sum : (x + y = -1 ∧ colors ≠ 1) ∨ x + y = -2) : False := by
      obtain ⟨far, near⟩ := apart x hx below
      rcases sum with ⟨sum, more⟩ | sum
      · rcases near with one | near
        · exact more one
        · rw [show -x - 1 = y by omega] at near
          exact near hy
      · rw [show -x - 2 = y by omega] at far
        exact far hy
    rcases cell_beq_iff.mp shared with same | mirror
    · exact (number_eq_iff hc hd).mp same
    · have sum : (v + w = -1 ∧ colors ≠ 1) ∨ v + w = -2 := by
        rcases (number_eq_neg_iff hc hd).mp mirror with ⟨sum, more⟩ | ⟨sum, -, -⟩
        · exact .inl ⟨sum, by omega⟩
        · exact .inr sum
      by_cases below : v < 0
      · exact (never hv hw below sum).elim
      · exact (never hw hv (by omega) (by omega)).elim

end Numbers

section Clauses

variable {edges : List (List Int)} {colors : Nat}

theorem exists_edgeClauses_iff {e : List Int} :
    (∃ cs, edgeClauses colors e = .ok cs) ↔ e.length = 2 := by
  constructor
  · rintro ⟨cs, h⟩
    unfold edgeClauses at h
    split at h
    · rfl
    all_goals cases h
  · exact fun two => ⟨_, edgeClauses_of_two two⟩

theorem two_of_clauses {cs : List (List Int)} (h : clauses edges colors = .ok cs) :
    ∀ e ∈ edges, e.length = 2 := by
  rw [clauses] at h
  intro e he
  rw [← @exists_edgeClauses_iff colors]
  refine exists_mapM_ok_iff.mp ?_ e he
  cases read : edges.mapM (edgeClauses colors) with
  | ok perEdge => exact ⟨perEdge, rfl⟩
  | error e =>
    rw [read] at h
    cases h

theorem number_of_mem_asked {k : List Int} (hk : k ∈ asked edges colors) {n : Int} (hn : n ∈ k) :
    ∃ v ∈ vertices edges, ∃ c < colors, n = number colors v c ∨ n = -number colors v c := by
  rcases List.mem_append.mp hk with hk | hk
  · obtain ⟨v, hv, hk⟩ := List.mem_flatMap.mp hk
    refine ⟨v, hv, ?_⟩
    rcases List.mem_cons.mp hk with rfl | hk
    · obtain ⟨c, hc, rfl⟩ := List.mem_map.mp hn
      exact ⟨c, List.mem_range.mp hc, .inl rfl⟩
    · obtain ⟨⟨c, d⟩, hp, rfl⟩ := List.mem_map.mp hk
      obtain ⟨before, below⟩ := Pigeonhole.mem_pairsBelow.mp hp
      rcases List.mem_cons.mp hn with rfl | hn
      · exact ⟨c, Nat.lt_trans before below, .inr rfl⟩
      · exact ⟨d, below, .inr (List.mem_singleton.mp hn)⟩
  · obtain ⟨e, he, hk⟩ := List.mem_flatMap.mp hk
    obtain ⟨c, hc, rfl⟩ := List.mem_map.mp hk
    obtain ⟨v, hv, rfl⟩ := List.mem_map.mp hn
    exact ⟨v, mem_vertices.mpr ⟨e, he, hv⟩, c, List.mem_range.mp hc, .inr rfl⟩

theorem row_mem_asked {v : Int} (hv : v ∈ vertices edges) :
    (List.range colors).map (number colors v) ∈ asked edges colors :=
  List.mem_append_left _ (List.mem_flatMap.mpr ⟨v, hv, List.mem_cons_self⟩)

theorem zero_not_mem_asked_iff (positive : 0 < colors) :
    (∀ k ∈ asked edges colors, 0 ∉ k) ↔ -1 ∉ vertices edges := by
  constructor
  · intro nonzero hv
    have zero : number colors (-1) (colors - 1) = 0 :=
      (number_eq_zero_iff (by omega)).mpr ⟨rfl, by omega⟩
    apply nonzero _ (row_mem_asked hv)
    rw [← zero]
    exact List.mem_map_of_mem (List.mem_range.mpr (by omega))
  · intro absent k hk zero
    obtain ⟨v, hv, c, hc, same⟩ := number_of_mem_asked hk zero
    have vanishes : number colors v c = 0 := by omega
    obtain ⟨rfl, -⟩ := (number_eq_zero_iff hc).mp vanishes
    exact absent hv

theorem ofInput_eq_ok_iff (positive : 0 < colors) {f : Formula Variable} :
    (ofInput (.items (edges.map .items)) colors).outcome = .ok f ↔
      ((∀ e ∈ edges, e.length = 2) ∧ -1 ∉ vertices edges) ∧
        f = .ofClauses ((asked edges colors).map (fun k => k.map Literal.signed)) none := by
  rw [ofInput_items, formula, Int.toNat_natCast, ← zero_not_mem_asked_iff positive]
  constructor
  · intro built
    cases made : clauses edges colors with
    | error e =>
      rw [made] at built
      cases built
    | ok cs =>
      have two := two_of_clauses made
      obtain rfl : asked edges colors = cs :=
        Except.ok.inj ((clauses_of_two two).symm.trans made)
      rw [made] at built
      have nonzero := Formula.exists_ofSigned_iff.mp ⟨f, built⟩
      exact ⟨⟨two, nonzero⟩, Except.ok.inj (built.symm.trans (Formula.ofSigned_outcome nonzero))⟩
  · rintro ⟨⟨two, nonzero⟩, rfl⟩
    rw [clauses_of_two two]
    exact Formula.ofSigned_outcome nonzero

theorem distinct_row (v : Int) :
    distinct (((List.range colors).map (number colors v)).map Literal.signed) =
      (List.range colors).map fun c => ⟨cell colors v c, 0 ≤ v⟩ := by
  have literals : ((List.range colors).map (number colors v)).map Literal.signed =
      (List.range colors).map fun c => ⟨cell colors v c, 0 ≤ v⟩ := by
    rw [List.map_map]
    apply List.map_congr_left
    intro c hc
    have sign : decide (0 < number colors v c) = decide (0 ≤ v) :=
      decide_eq_decide.mpr (number_pos_iff (List.mem_range.mp hc))
    exact congrArg (Literal.mk (cell colors v c)) sign
  rw [literals]
  apply distinct_eq_self
  refine List.pairwise_map.mpr (List.pairwise_lt_range.imp_of_mem ?_)
  intro c d hc hd before
  have hc := List.mem_range.mp hc
  have hd := List.mem_range.mp hd
  rw [Bool.eq_false_iff, Literal.beq_eq]
  intro same
  rcases cell_beq_iff.mp (Bool.and_eq_true_iff.mp same).1 with equal | mirror
  · obtain ⟨-, rfl⟩ := (number_eq_iff hc hd).mp equal
    exact Nat.lt_irrefl c before
  · rcases (number_eq_neg_iff hc hd).mp mirror with ⟨odd, -⟩ | ⟨-, last, last'⟩
    · omega
    · omega

end Clauses

/-- Edges make a formula exactly if each of them has two ends and none of these is -1. The variables
of the formula are those of vertices and colours, and the clause that asks a vertex for a colour has
positive literals exactly if the vertex is not negative. Every vertex and colour has a variable of
its own exactly if no vertex `v` below zero has another one at `-v - 2`, or at `-v - 1` where there
is more than one colour. -/
theorem vertices_numbered {colors : Nat} (positive : 0 < colors) (edges : List (List Int)) :
    ((∃ f, (ofInput (.items (edges.map .items)) colors).outcome = .ok f) ↔
      (∀ e ∈ edges, e.length = 2) ∧ -1 ∉ vertices edges) ∧
    ∀ f, (ofInput (.items (edges.map .items)) colors).outcome = .ok f →
      (∀ k ∈ f.clauses, ∀ l ∈ k, ∃ v ∈ vertices edges, ∃ c < colors, l.var = cell colors v c) ∧
      (∀ v ∈ vertices edges,
        (List.range colors).map (fun c => ⟨cell colors v c, 0 ≤ v⟩) ∈ f.clauses) ∧
      (Unambiguous (vertices edges) colors ↔ ∀ v ∈ vertices edges, v < 0 →
        -v - 2 ∉ vertices edges ∧ (colors = 1 ∨ -v - 1 ∉ vertices edges)) := by
  refine ⟨?_, ?_⟩
  · simp only [ofInput_eq_ok_iff positive, exists_and_left, exists_eq, and_true]
  · intro f built
    obtain ⟨⟨-, absent⟩, rfl⟩ := (ofInput_eq_ok_iff positive).mp built
    have given : (Formula.ofClauses ((asked edges colors).map (fun k => k.map Literal.signed))
        none).clauses = ((asked edges colors).map fun k => k.map Literal.signed).map distinct := rfl
    rw [given]
    refine ⟨?_, ?_, unambiguous_iff positive absent⟩
    · intro k hk l hl
      obtain ⟨_, signed, rfl⟩ := List.mem_map.mp hk
      obtain ⟨ns, hns, rfl⟩ := List.mem_map.mp signed
      obtain ⟨n, hn, rfl⟩ := List.mem_map.mp ((distinct_sublist _).mem hl)
      obtain ⟨v, hv, c, hc, same⟩ := number_of_mem_asked hns hn
      refine ⟨v, hv, c, hc, ?_⟩
      rcases same with rfl | rfl
      · rfl
      · rw [Literal.signed, Int.natAbs_neg]
        rfl
    · intro v hv
      rw [← distinct_row]
      exact List.mem_map_of_mem (List.mem_map_of_mem (row_mem_asked hv))

theorem lone_vertices_numbered :
    0 < 2 ∧ ∃ f, (ofInput (.items ([[-4, 1], [0, 1]].map .items)) 2).outcome = .ok f ∧
      [⟨.number 7, false⟩, ⟨.number 6, false⟩] ∈ f.clauses ∧
      [⟨.number 3, true⟩, ⟨.number 4, true⟩] ∈ f.clauses ∧
      Unambiguous (vertices [[-4, 1], [0, 1]]) 2 := by
  obtain ⟨makes, numbered⟩ := vertices_numbered (by decide : 0 < 2) [[-4, 1], [0, 1]]
  obtain ⟨f, built⟩ := makes.mpr (by decide)
  obtain ⟨-, rows, own⟩ := numbered f built
  have negative : [⟨.number 7, false⟩, ⟨.number 6, false⟩] ∈ f.clauses := by
    have row := rows (-4) (by decide)
    simpa [cell, number, Literal.signed, List.range_succ] using row
  exact ⟨by decide, f, built, negative, rows 1 (by decide), own.mpr (by decide)⟩

/-- The first colours of the vertices -2 and 1 have one variable, and no valuation is left for two
edges that two colours are enough for. -/
theorem mirrored_vertices_confused :
    ∃ f, (ofInput (.items ([[0, 1], [-2, 5]].map .items)) 2).outcome = .ok f ∧
      ¬ Unambiguous (vertices [[0, 1], [-2, 5]]) 2 ∧
      [⟨.number 3, false⟩, ⟨.number 2, false⟩] ∈ f.clauses ∧
      ∀ a : Valuation Variable, ¬ a.Satisfies f.clauses := by
  have nonzero : ∀ k ∈ asked [[0, 1], [-2, 5]] 2, 0 ∉ k := by decide
  obtain ⟨f, built, models⟩ := Formula.ofSigned_models nonzero
  refine ⟨f, built, ?_, ?_, ?_⟩
  · intro own
    obtain ⟨same, -⟩ := own (-2) (by decide) 1 (by decide) 0 (by decide) 0 (by decide) rfl
    cases same
  · obtain rfl := Except.ok.inj built
    exact List.mem_cons_self
  · intro a
    rw [models]
    intro model
    have either {m n : Int} (h : [m, n] ∈ asked [[0, 1], [-2, 5]] 2) : a.Makes m ∨ a.Makes n := by
      simpa using model _ h
    have never {m n : Int} (hm : m ≠ 0) (hn : n ≠ 0)
        (h : [-m, -n] ∈ asked [[0, 1], [-2, 5]] 2) : ¬ (a.Makes m ∧ a.Makes n) := by
      rw [not_and_or, ← Valuation.makes_neg hm, ← Valuation.makes_neg hn]
      exact either h
    have differ : ¬ (a.Makes 3 ∧ a.Makes 2) := never (by decide) (by decide) (by decide)
    -- Whichever of the two is true, the other end of the first edge is left without a colour.
    rcases either (by decide : [3, 2] ∈ asked [[0, 1], [-2, 5]] 2) with three | two
    · have one : a.Makes 1 := (either (by decide)).resolve_right fun two => differ ⟨three, two⟩
      exact never (by decide) (by decide) (by decide) ⟨one, three⟩
    · have four : a.Makes 4 := (either (by decide)).resolve_left fun three => differ ⟨three, two⟩
      exact never (by decide) (by decide) (by decide) ⟨two, four⟩

end Clausal.Coloring
