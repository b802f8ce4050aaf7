import Mathlib.Data.Fintype.Card
import Logistics.CircuitSolver

namespace Logistics.CircuitSolver

open List

variable {n : Nat} {K : Type} [Zero K] [LT K] {adj : Fin n → Fin n → K} {s : Fin n}

def IsHamiltonian (adj : Fin n → Fin n → K) (s : Fin n) (circuit : SymPath n) : Prop :=
  ∃ middle, circuit = s :: (middle ++ [s]) ∧ s ∉ middle ∧ (∀ v, v ≠ s → middle.count v = 1) ∧
    circuit.IsChain fun x y => 0 < adj x y

variable {path : SymPath n}

theorem mem_of_nodup_of_length (hnodup : path.Nodup) (hlength : path.length = n) (v : Fin n) : v ∈ path := by
  have hcard : path.toFinset.card = Fintype.card (Fin n) := by
    rw [toFinset_card_of_nodup hnodup, hlength, Fintype.card_fin]
  have huniv := Finset.eq_univ_of_card _ hcard
  exact mem_toFinset.mp (huniv ▸ Finset.mem_univ v)

theorem length_of_nodup_of_mem (hnodup : path.Nodup) (hmem : ∀ v, v ∈ path) : path.length = n := by
  have huniv : path.toFinset = Finset.univ := by
    ext v
    simp [hmem v]
  rw [← toFinset_card_of_nodup hnodup, huniv, Finset.card_univ, Fintype.card_fin]

theorem IsSimple.isHamiltonian {k : Nat} (hk : k + 1 = n) {last : Fin n}
    (h : IsSimple adj k s last path) (hback : 0 < adj last s) : IsHamiltonian adj s (path ++ [s]) := by
  have hchain : (path ++ [s]).IsChain fun x y => 0 < adj x y := by
    refine h.chain.append (isChain_singleton s) ?_
    intro x hx y hy
    rw [h.last] at hx
    obtain rfl := Option.some.inj hx
    obtain rfl := Option.some.inj hy
    exact hback
  obtain ⟨middle, rfl⟩ := head?_eq_some_iff.mp h.head
  obtain ⟨hs, hnodup⟩ := nodup_cons.mp h.nodup
  refine ⟨middle, rfl, hs, ?_, hchain⟩
  intro v hv
  have hmem := mem_of_nodup_of_length h.nodup (h.length.trans hk) v
  exact count_eq_one_of_mem hnodup (mem_of_ne_of_mem hv hmem)

variable {circuit : SymPath n}

theorem IsHamiltonian.isSimple {k : Nat} (hk : k + 1 = n) (h : IsHamiltonian adj s circuit) :
    ∃ last path, circuit = path ++ [s] ∧ IsSimple adj k s last path ∧ 0 < adj last s := by
  obtain ⟨middle, rfl, hs, hcount, hchain⟩ := h
  have hnodup : (s :: middle).Nodup := by
    refine nodup_cons.mpr ⟨hs, nodup_iff_count_le_one.mpr fun v => ?_⟩
    by_cases hv : v = s
    · rw [hv, count_eq_zero_of_not_mem hs]
      exact Nat.zero_le 1
    · exact (hcount v hv).le
  have hmem (v : Fin n) : v ∈ s :: middle := by
    by_cases hv : v = s
    · exact mem_cons.mpr (.inl hv)
    · exact mem_cons_of_mem s (count_pos_iff.mp (hcount v hv ▸ Nat.one_pos))
  have hlast := getLast?_eq_some_getLast (cons_ne_nil s middle)
  rw [← cons_append] at hchain
  obtain ⟨hpath, -, hback⟩ := isChain_append.mp hchain
  refine ⟨_, s :: middle, rfl, ⟨?_, rfl, hlast, hnodup, hpath⟩, hback _ hlast s rfl⟩
  rw [length_of_nodup_of_mem hnodup hmem, hk]

theorem isHamiltonian_iff (hn : 2 ≤ n) : IsHamiltonian adj s circuit ↔
    ∃ last path, circuit = path ++ [s] ∧ IsSimple adj (n - 1) s last path ∧ 0 < adj last s := by
  have hk : n - 1 + 1 = n := by omega
  constructor
  · intro h
    exact h.isSimple hk
  · rintro ⟨last, path, rfl, hpath, hback⟩
    exact hpath.isHamiltonian hk hback

variable [LE K]

/-- What the search from `s` finds: the entry back to `s` only has to fail the test `<= 0.0`. -/
def Found (adj : Fin n → Fin n → K) (s : Fin n) (circuit : SymPath n) : Prop :=
  ∃ last path, circuit = path ++ [s] ∧ IsSimple adj (n - 1) s last path ∧ ¬ adj last s ≤ 0

/-- The entries that could close a path through all nodes fail exactly one of the two tests. -/
def Decided (adj : Fin n → Fin n → K) (s : Fin n) : Prop :=
  ∀ last path, IsSimple adj (n - 1) s last path → (¬ adj last s ≤ 0 ↔ 0 < adj last s)

theorem found_iff (hn : 2 ≤ n) (h : Decided adj s) : Found adj s circuit ↔ IsHamiltonian adj s circuit := by
  rw [isHamiltonian_iff hn]
  refine exists_congr fun last => exists_congr fun path => and_congr_right fun _ => ?_
  exact and_congr_right fun hpath => h last path hpath

theorem decided {L : Type} [Zero L] [LinearOrder L] (adj : Fin n → Fin n → L) (s : Fin n) : Decided adj s :=
  fun _ _ _ => not_le

variable [DecidableLT K] [DecidableLE K]

theorem mem_closedPaths (hn : 2 ≤ n) :
    circuit ∈ closedPaths adj (power (buildSymbolicMatrix adj) (n - 2)) s ↔ Found adj s circuit := by
  have hk : n - 2 + 1 = n - 1 := by omega
  simp only [closedPaths, mem_flatMap, mem_finRange, true_and]
  constructor
  · rintro ⟨last, hmem⟩
    split at hmem
    next => exact absurd hmem not_mem_nil
    next hback =>
      obtain ⟨path, hpath, rfl⟩ := mem_map.mp hmem
      exact ⟨last, path, rfl, hk ▸ mem_power.mp (mem_filter.mp hpath).1, hback⟩
  · rintro ⟨last, path, rfl, hsimple, hback⟩
    refine ⟨last, ?_⟩
    rw [if_neg hback]
    refine mem_map.mpr ⟨path, mem_filter.mpr ⟨mem_power.mpr (hk ▸ hsimple), ?_⟩, rfl⟩
    have hlength := hsimple.length
    exact decide_eq_true (by omega)

theorem mem_candidates (hn : 2 ≤ n) {startNode : Int} :
    circuit ∈ (startNodes startNode).flatMap (closedPaths adj (power (buildSymbolicMatrix adj) (n - 2))) ↔
      ∃ s : Fin n, (startNode < 0 ∨ (s.val : Int) = startNode) ∧ Found adj s circuit := by
  simp [startNodes, mem_closedPaths hn]

theorem findHamiltonianCircuits_eq (hn : 2 ≤ n) (adj : Fin n → Fin n → K) (startNode : Int) (hlow : -1 ≤ startNode)
    (hhigh : startNode < n) : ∃ circuits, findHamiltonianCircuits adj startNode = .ok ⟨!circuits.isEmpty, circuits⟩ ∧
      circuits = keepFirst (fun circuit => pathKey (normalize startNode circuit)) []
        ((startNodes startNode).flatMap (closedPaths adj (power (buildSymbolicMatrix adj) (n - 2)))) := by
  rw [findHamiltonianCircuits, if_neg (by omega), if_neg (by omega)]
  exact ⟨_, rfl, rfl⟩

theorem circuits_from (hn : 2 ≤ n) (adj : Fin n → Fin n → K) (s : Fin n) :
    ∃ circuits, findHamiltonianCircuits adj s.val = .ok ⟨!circuits.isEmpty, circuits⟩ ∧ circuits.Nodup ∧
      ∀ circuit, circuit ∈ circuits ↔ Found adj s circuit := by
  obtain ⟨circuits, hresult, rfl⟩ := findHamiltonianCircuits_eq hn adj s.val (by omega) (by omega)
  refine ⟨_, hresult, nodup_keepFirst, fun circuit => ?_⟩
  have hkey : (fun circuit : SymPath n => pathKey (normalize s.val circuit)) = pathKey := by
    funext circuit
    rw [normalize, if_pos (Int.natCast_nonneg s.val)]
  rw [hkey, mem_keepFirst_iff pathKey_injective, mem_candidates hn]
  constructor
  · rintro ⟨t, hneg | heq, ht⟩
    · omega
    · obtain rfl : t = s := Fin.ext (Int.ofNat_inj.mp heq)
      exact ht
  · intro h
    exact ⟨s, .inr rfl, h⟩

/-- A `double` by what its comparisons tell: NaN compares with nothing. -/
inductive Double (K : Type)
  | nan
  | number (value : K)
deriving DecidableEq

namespace Double

variable {K : Type}

def lt [LT K] : Double K → Double K → Prop
  | number x, number y => x < y
  | _, _ => False

def le [LE K] : Double K → Double K → Prop
  | number x, number y => x ≤ y
  | _, _ => False

instance [Zero K] : Zero (Double K) := ⟨number 0⟩

instance [LT K] : LT (Double K) := ⟨lt⟩

instance [LE K] : LE (Double K) := ⟨le⟩

instance [LT K] [DecidableLT K] : DecidableLT (Double K)
  | number x, number y => inferInstanceAs (Decidable (x < y))
  | nan, number _ => isFalse id
  | number _, nan => isFalse id
  | nan, nan => isFalse id

instance [LE K] [DecidableLE K] : DecidableLE (Double K)
  | number x, number y => inferInstanceAs (Decidable (x ≤ y))
  | nan, number _ => isFalse id
  | number _, nan => isFalse id
  | nan, nan => isFalse id

theorem not_le_zero_iff [Zero K] [LinearOrder K] {x : Double K} (h : x ≠ nan) : ¬ x ≤ 0 ↔ 0 < x := by
  cases x with
  | nan => exact absurd rfl h
  | number x => exact (not_le : ¬ x ≤ 0 ↔ 0 < x)

end Double

variable {L : Type} [Zero L] [LinearOrder L] {entries : Fin n → Fin n → Double L}

theorem decided_of_ne_nan (h : ∀ last path, IsSimple entries (n - 1) s last path → entries last s ≠ .nan) :
    Decided entries s :=
  fun last path hpath => Double.not_le_zero_iff (h last path hpath)

theorem found_over_nan {last : Fin n} (hn : 2 ≤ n) (hpath : IsSimple entries (n - 1) s last path)
    (hnan : entries last s = .nan) : Found entries s (path ++ [s]) ∧ ¬ IsHamiltonian entries s (path ++ [s]) := by
  refine ⟨⟨last, path, rfl, hpath, by rw [hnan]; exact id⟩, fun h => ?_⟩
  obtain ⟨last', path', heq, hpath', hpos⟩ := (isHamiltonian_iff hn).mp h
  obtain ⟨rfl, -⟩ := append_inj' heq rfl
  rw [← Option.some.inj (hpath.last.symm.trans hpath'.last), hnan] at hpos
  exact hpos

/-- The search from a node is sound, complete and without duplicates exactly when no path along positive entries
through all nodes comes back to its start over a NaN. -/
theorem findHamiltonianCircuits_exact_iff (hn : 2 ≤ n) (adj : Fin n → Fin n → Double L) (s : Fin n) :
    (∃ result, findHamiltonianCircuits adj s.val = .ok result ∧
      (∀ circuit, circuit ∈ result.circuits ↔ IsHamiltonian adj s circuit) ∧ result.circuits.Nodup ∧
      (result.hasCircuit = true ↔ ∃ circuit, IsHamiltonian adj s circuit)) ↔
    ∀ last path, IsSimple adj (n - 1) s last path → adj last s ≠ .nan := by
  obtain ⟨circuits, hresult, hnodup, hmem⟩ := circuits_from hn adj s
  constructor
  · rintro ⟨result, hok, hexact, -⟩ last path hpath hnan
    obtain rfl := Except.ok.inj (hresult.symm.trans hok)
    obtain ⟨hfound, hnot⟩ := found_over_nan hn hpath hnan
    exact hnot ((hexact _).mp ((hmem _).mpr hfound))
  · intro hclear
    have hexact := fun circuit => (hmem circuit).trans (found_iff hn (decided_of_ne_nan hclear))
    refine ⟨_, hresult, hexact, hnodup, ?_⟩
    simp only [Bool.not_eq_true', isEmpty_eq_false_iff_exists_mem]
    exact exists_congr hexact

def triangle (u v : Fin 3) : Double Int :=
  if v.val = (u.val + 1) % 3 then .number 1 else if u.val = 1 then .nan else .number 0

theorem triangle_decided (s : Fin 3) : ∀ last path, IsSimple triangle (3 - 1) s last path → triangle last s ≠ .nan := by
  intro last path h
  have hcells : ∀ s last : Fin 3, power (buildSymbolicMatrix triangle) 1 s last ≠ [] → triangle last s ≠ .nan := by
    decide +kernel
  exact hcells s last (ne_nil_of_mem (mem_power.mpr h))

theorem triangle_circuits : ∃ result, findHamiltonianCircuits triangle 0 = .ok result ∧
    result.hasCircuit = true ∧ ∃ circuit ∈ result.circuits, circuit.map Fin.val = [0, 1, 2, 0] := by
  obtain ⟨result, hresult, hmem, -, hhas⟩ :=
    (findHamiltonianCircuits_exact_iff (by decide) triangle 0).mpr (triangle_decided 0)
  have hcircuit : IsHamiltonian triangle 0 [0, 1, 2, 0] := ⟨[1, 2], rfl, by decide, by decide, by decide⟩
  exact ⟨result, hresult, hhas.mpr ⟨_, hcircuit⟩, _, (hmem _).mpr hcircuit, rfl⟩

def closedOverNan (u v : Fin 2) : Double Int :=
  if u = v then .number 0 else if u.val = 0 then .nan else .number 1

theorem circuit_over_nan : findHamiltonianCircuits closedOverNan 1 = .ok ⟨true, [[1, 0, 1]]⟩ ∧
    ¬ IsHamiltonian closedOverNan 1 [1, 0, 1] := by
  have hresult : findHamiltonianCircuits closedOverNan 1 = .ok ⟨true, [[1, 0, 1]]⟩ := by decide +kernel
  refine ⟨hresult, ?_⟩
  rintro ⟨middle, -, -, -, hchain⟩
  exact absurd hchain (by decide)

end Logistics.CircuitSolver
