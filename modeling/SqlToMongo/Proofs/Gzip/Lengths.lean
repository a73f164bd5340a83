import SqlToMongo.Proofs.Gzip.CanonicalCode

/-!
# Lengths from weights

Joining two trees puts every symbol one level deeper, so the weights of the depths, `2⁻ᵈ` for a
depth `d`, add up to one in every tree that is built. The tree that is left has the symbols of all
leaves, each once. Its depths are the lengths of a complete code, unless some are too large; then
lengths of a code of almost equal words can take their place.

## Main result

`fit_boundedLengths`: the lengths are those of a complete code, and each symbol with a weight has a
word.
-/

namespace SqlToMongo.Gzip.Weights

/-! ### Trees -/

/-- The sum of the weights of the depths. -/
def depthShare (depths : List (Nat × Nat)) : ℚ :=
  (depths.map fun p => (1 / 2 : ℚ) ^ p.2).sum

@[simp]
theorem depthShare_nil : depthShare [] = 0 := rfl

@[simp]
theorem depthShare_cons (p : Nat × Nat) (depths : List (Nat × Nat)) :
    depthShare (p :: depths) = (1 / 2 : ℚ) ^ p.2 + depthShare depths := by
  rw [depthShare, List.map_cons, List.sum_cons, depthShare]

theorem depthShare_append (a b : List (Nat × Nat)) :
    depthShare (a ++ b) = depthShare a + depthShare b := by
  rw [depthShare, List.map_append, List.sum_append, depthShare, depthShare]

theorem depthShare_deeper (depths : List (Nat × Nat)) :
    depthShare (depths.map fun (symbol, depth) => (symbol, depth + 1)) = depthShare depths / 2 := by
  induction depths with
  | nil => simp
  | cons p depths ih =>
    rw [List.map_cons, depthShare_cons, ih, depthShare_cons, pow_succ]
    ring

/-- Trees that have the symbols, each once. A tree that is left alone is none of the leaves. -/
structure Forest (symbols : List Nat) (trees : List Tree) : Prop where
  whole : ∀ t ∈ trees, depthShare t.2 = 1
  perm : (trees.flatMap fun t => t.2.map Prod.fst).Perm symbols
  grown : trees.length = 1 → ∀ t ∈ trees, ∀ p ∈ t.2, p.2 ≠ 0

theorem insertTree_perm (t : Tree) (trees : List Tree) :
    (insertTree t trees).Perm (t :: trees) := by
  induction trees with
  | nil => rfl
  | cons u trees ih =>
    rw [insertTree]
    split
    · rfl
    · exact (ih.cons u).trans (.swap t u trees)

variable {symbols : List Nat}

theorem Forest.of_perm {a b : List Tree} (forest : Forest symbols a) (perm : a.Perm b) :
    Forest symbols b where
  whole t member := forest.whole t (perm.mem_iff.mpr member)
  perm := (perm.flatMap_right _).symm.trans forest.perm
  grown single t member := forest.grown (perm.length_eq.trans single) t (perm.mem_iff.mpr member)

theorem Forest.join {t u : Tree} {trees : List Tree} (forest : Forest symbols (t :: u :: trees)) :
    Forest symbols (join t u :: trees) where
  whole := by
    obtain ⟨first, second, others⟩ : depthShare t.2 = 1 ∧ depthShare u.2 = 1 ∧
        ∀ t ∈ trees, depthShare t.2 = 1 := by simpa using forest.whole
    refine List.forall_mem_cons.mpr ⟨?_, others⟩
    rw [Weights.join, depthShare_deeper, depthShare_append, first, second]
    norm_num
  perm := by
    have same := forest.perm
    simpa [Weights.join, Function.comp_def] using same
  grown := by
    intro single v member
    obtain rfl : trees = [] := by simpa using single
    obtain rfl := List.mem_singleton.mp member
    intro p deeper
    obtain ⟨q, _, rfl⟩ := List.mem_map.mp deeper
    exact Nat.succ_ne_zero q.2

/-- Enough steps leave one tree, by induction on them. -/
theorem Forest.mergeTrees {steps : Nat} {trees : List Tree} (forest : Forest symbols trees)
    (nonempty : trees ≠ []) (enough : trees.length ≤ steps + 1) :
    depthShare (mergeTrees steps trees) = 1 ∧
      ((mergeTrees steps trees).map Prod.fst).Perm symbols ∧
      ∀ p ∈ mergeTrees steps trees, p.2 ≠ 0 := by
  have alone {t : Tree} (forest : Forest symbols [t]) : depthShare t.2 = 1 ∧
      (t.2.map Prod.fst).Perm symbols ∧ ∀ p ∈ t.2, p.2 ≠ 0 :=
    ⟨forest.whole t (by simp), by simpa using forest.perm, forest.grown rfl t (by simp)⟩
  induction steps generalizing trees with
  | zero =>
    obtain ⟨t, rfl⟩ : ∃ t, trees = [t] := by
      refine List.length_eq_one_iff.mp ?_
      have := List.length_pos_of_ne_nil nonempty
      omega
    exact alone forest
  | succ steps ih =>
    match trees with
    | [] => exact absurd rfl nonempty
    | [t] => exact alone forest
    | t :: u :: rest =>
      have perm := (insertTree_perm (Weights.join t u) rest).symm
      rw [Weights.mergeTrees]
      apply ih (forest.join.of_perm perm)
      · exact fun empty => by simpa [empty] using perm.length_eq
      · rw [← perm.length_eq]
        simpa using enough

/-! ### Lengths -/

theorem sum_weight_lookup {n : Nat} {depths : List (Nat × Nat)}
    (distinct : (depths.map Prod.fst).Nodup) (inside : ∀ p ∈ depths, p.1 < n)
    (positive : ∀ p ∈ depths, p.2 ≠ 0) :
    (((List.range n).map fun s => (depths.lookup s).getD 0).map weight).sum =
      depthShare depths := by
  have asSum (f : Nat → ℚ) : ((List.range n).map f).sum = ∑ s ∈ Finset.range n, f s := rfl
  rw [List.map_map, asSum]
  induction depths with
  | nil => simp [depthShare, weight]
  | cons p depths ih =>
    obtain ⟨symbol, depth⟩ := p
    obtain ⟨absent, distinct⟩ := List.nodup_cons.mp distinct
    obtain ⟨bound, inside⟩ := List.forall_mem_cons.mp inside
    obtain ⟨some, positive⟩ := List.forall_mem_cons.mp positive
    have none : depths.lookup symbol = none := by
      rw [List.lookup_eq_none_iff]
      intro p member
      have apart : symbol ≠ p.1 := fun same =>
        absent (List.mem_map.mpr ⟨p, member, same.symm⟩)
      simpa using apart
    -- No other entry is about this symbol, so the first one adds its weight there and nowhere else.
    have split (s : Nat) : weight ((((symbol, depth) :: depths).lookup s).getD 0) =
        (if s = symbol then (1 / 2 : ℚ) ^ depth else 0) + weight ((depths.lookup s).getD 0) := by
      rw [List.lookup_cons]
      by_cases same : s = symbol
      · subst same
        simp [none, weight, some]
      · have other : (s == symbol) = false := by simpa using same
        simp [same, other]
    simp only [Function.comp_apply] at ih ⊢
    rw [Finset.sum_congr rfl fun s _ => split s, Finset.sum_add_distrib,
      ih distinct inside positive, Finset.sum_ite_eq' (Finset.range n) symbol,
      if_pos (Finset.mem_range.mpr bound), depthShare_cons]

/-- The symbols with a weight. -/
def weighted (weights : List Nat) : List Nat :=
  (weights.zipIdx.filter (·.1 ≠ 0)).map (·.2)

variable {weights : List Nat}

theorem mem_weighted {s : Nat} : s ∈ weighted weights ↔ ∃ w ≠ 0, weights[s]? = some w := by
  simp [weighted, List.mem_zipIdx_iff_getElem?, and_comm]

theorem leaves_eq (weights : List Nat) :
    leaves weights = (weights.zipIdx.filter (·.1 ≠ 0)).map fun p => (p.1, [(p.2, 0)]) := by
  rw [leaves, ← List.filterMap_eq_map, List.filterMap_filter]
  refine List.filterMap_congr fun p _ => ?_
  by_cases none : p.1 = 0 <;> simp [none]

/-- With two symbols or more no leaf is alone. -/
theorem forest_leaves (several : 2 ≤ (weighted weights).length) :
    Forest (weighted weights) ((leaves weights).foldr insertTree []) ∧
      ((leaves weights).foldr insertTree []).length = (leaves weights).length ∧
      (leaves weights).length = (weighted weights).length := by
  have count : (leaves weights).length = (weighted weights).length := by
    simp [leaves_eq, weighted]
  have perm (trees : List Tree) : trees.Perm (trees.foldr insertTree []) := by
    induction trees with
    | nil => rfl
    | cons t trees ih => exact (ih.cons t).trans (insertTree_perm t _).symm
  have forest : Forest (weighted weights) (leaves weights) := by
    constructor
    · rw [leaves_eq, List.forall_mem_map]
      simp
    · rw [leaves_eq, List.flatMap_map, weighted, List.map_eq_flatMap]
      rfl
    · omega
  exact ⟨forest.of_perm (perm _), (perm _).length_eq.symm, count⟩

/-- The weights of the lengths add up to one, and each symbol with a weight has a word. -/
theorem bestLengths_spec (several : 2 ≤ (weighted weights).length) :
    ((bestLengths weights).map weight).sum = 1 ∧
      ∀ s ∈ weighted weights, ∃ length, (bestLengths weights)[s]? = some length ∧ length ≠ 0 := by
  obtain ⟨forest, size, count⟩ := forest_leaves several
  have nonempty : (leaves weights).foldr insertTree [] ≠ [] := by
    refine List.ne_nil_of_length_pos ?_
    omega
  obtain ⟨whole, perm, positive⟩ :=
    @Forest.mergeTrees _ (leaves weights).length _ forest nonempty (by omega)
  have distinct := perm.nodup_iff.mpr (Code.nodup_places weights (·.1 ≠ 0))
  have bound {s : Nat} (member : s ∈ weighted weights) : s < weights.length := by
    obtain ⟨w, _, has⟩ := mem_weighted.mp member
    exact (List.getElem?_eq_some_iff.mp has).1
  refine ⟨?_, fun s member => ?_⟩
  · rw [← whole]
    refine sum_weight_lookup distinct (fun p found => bound ?_) positive
    exact perm.mem_iff.mp (List.mem_map_of_mem found)
  · simp only [bestLengths, List.getElem?_map, List.getElem?_range (bound member), Option.map_some,
      Option.some.injEq, exists_eq_left']
    obtain ⟨p, found, rfl⟩ := List.mem_map.mp (perm.mem_iff.mpr member)
    cases looked : List.lookup p.1 _ with
    | none => simpa using List.lookup_eq_none_iff.mp looked p found
    | some depth =>
      obtain ⟨front, back, split, _⟩ := List.lookup_eq_some_iff.mp looked
      exact positive (p.1, depth) (by simp [split])

/-! ### Lengths that fit -/

/-- The lengths of a complete code in which each symbol with a weight has a word. -/
structure Fit (weights lengths : List Nat) : Prop where
  complete : Complete lengths
  size : lengths.length = weights.length
  positive : ∀ s ∈ weighted weights, ∃ length, lengths[s]? = some length ∧ length ≠ 0

/-- Halving the short words of a code leaves as many of the long ones as it takes. -/
theorem complete_evenLengths {count : Nat} (several : 2 ≤ count) (bounded : count < 2 ^ maxLength) :
    Complete (evenLengths count) ∧ (evenLengths count).length = count ∧
      ∀ length ∈ evenLengths count, length ≠ 0 := by
  have low : 2 ^ Nat.log2 count ≤ count := Nat.log2_self_le (by omega)
  have high : count < 2 ^ (Nat.log2 count + 1) := Nat.lt_log2_self
  have wide : 1 ≤ Nat.log2 count := (Nat.le_log2 (by omega)).mpr several
  have narrow : Nat.log2 count < maxLength := (Nat.log2_lt (by omega)).mpr bounded
  have whole : evenLengths count =
      List.replicate (2 ^ (Nat.log2 count + 1) - count) (Nat.log2 count) ++
        List.replicate (count - (2 ^ (Nat.log2 count + 1) - count)) (Nat.log2 count + 1) := rfl
  -- From here on only these bounds of the width count, not that it is a logarithm.
  generalize Nat.log2 count = width at low high wide narrow whole
  rw [pow_succ] at high whole
  have member {length : Nat} (member : length ∈ evenLengths count) :
      length = width ∨ length = width + 1 := by
    rw [whole, List.mem_append] at member
    exact member.imp List.eq_of_mem_replicate List.eq_of_mem_replicate
  refine ⟨⟨?_, ?_⟩, ?_, ?_⟩
  · intro length found
    rcases member found with rfl | rfl <;> omega
  · have unit : (2 : ℚ) ^ width * (1 / 2) ^ width = 1 := by
      rw [← mul_pow]
      norm_num
    have positive : width ≠ 0 := by omega
    rw [whole]
    simp only [List.map_append, List.map_replicate, List.sum_append, List.sum_replicate,
      nsmul_eq_mul, weight, if_neg positive, if_neg (Nat.succ_ne_zero width), pow_succ]
    rw [Nat.cast_sub (by omega), Nat.cast_sub (by omega), Nat.cast_sub (by omega)]
    push_cast
    linarith
  · rw [whole]
    simp
    omega
  · intro length found
    rcases member found with rfl | rfl <;> omega

theorem weighted_map {f : Nat → Nat} (kept : ∀ w, f w = 0 ↔ w = 0) :
    weighted (weights.map f) = weighted weights := by
  rw [weighted, List.zipIdx_map, List.filter_map, List.map_map, weighted]
  congr 1
  refine List.filter_congr fun p _ => ?_
  simp [kept]

theorem fit_boundedLengths {steps : Nat} (several : 2 ≤ (weighted weights).length)
    (bounded : weights.length < 2 ^ maxLength) : Fit weights (boundedLengths steps weights) := by
  induction steps generalizing weights with
  | zero =>
    have enough : 2 ≤ weights.length := by
      have fewer := List.length_filter_le (·.1 ≠ 0) weights.zipIdx
      rw [weighted, List.length_map] at several
      rw [List.length_zipIdx] at fewer
      exact several.trans fewer
    obtain ⟨complete, size, positive⟩ := complete_evenLengths enough bounded
    refine ⟨complete, size, fun s member => ?_⟩
    obtain ⟨w, _, has⟩ := mem_weighted.mp member
    have inside : s < (evenLengths weights.length).length := by
      rw [size]
      exact (List.getElem?_eq_some_iff.mp has).1
    exact ⟨_, List.getElem?_eq_getElem inside, positive _ (List.getElem_mem inside)⟩
  | succ steps ih =>
    obtain ⟨whole, positive⟩ := bestLengths_spec several
    rw [boundedLengths]
    split
    next fits =>
      have short : ∀ length ∈ bestLengths weights, length ≤ maxLength := by simpa using fits
      exact ⟨⟨short, whole⟩, by simp [bestLengths], positive⟩
    next =>
      -- Half a weight is rounded up, so no symbol loses its own.
      have same : weighted (weights.map fun w => (w + 1) / 2) = weighted weights :=
        weighted_map fun w => by omega
      obtain ⟨complete, size, positive⟩ := @ih (weights.map fun w => (w + 1) / 2)
        (by rwa [same]) (by simpa using bounded)
      exact ⟨complete, by simpa using size, by rwa [same] at positive⟩

end SqlToMongo.Gzip.Weights
