import Mathlib.Data.List.Chain
import Mathlib.Data.List.FinRange
import Mathlib.Data.List.Rotate
import Logistics.DecimalText

namespace Logistics.CircuitSolver

open List

variable {n : Nat} {K : Type} [Zero K] [LT K]

abbrev SymPath (n : Nat) := List (Fin n)

abbrev SymMatrix (n : Nat) := Fin n → Fin n → List (SymPath n)

def repeatsNode (seen : List (Fin n)) : SymPath n → Bool
  | [] => false
  | node :: path => if node ∈ seen then true else repeatsNode (node :: seen) path

def pathHasRepeatedNodes (path : SymPath n) : Bool := repeatsNode [] path

def pathKey (path : SymPath n) : String := ",".intercalate (path.map fun node => toString node.val)

def keepFirst (key : SymPath n → String) (seen : List String) : List (SymPath n) → List (SymPath n)
  | [] => []
  | path :: paths =>
    if key path ∈ seen then keepFirst key seen paths
    else path :: keepFirst key (key path :: seen) paths

def deduplicatePaths (paths : List (SymPath n)) : List (SymPath n) := keepFirst pathKey [] paths

def openCircuit (circuit : SymPath n) : SymPath n :=
  if 1 < circuit.length ∧ circuit.head? = circuit.getLast? then circuit.dropLast else circuit

def bestRotation (path : SymPath n) : SymPath n :=
  (range (path.length - 1)).foldl
    (fun best k => if path.rotate (k + 1) < best then path.rotate (k + 1) else best) path

def canonicalizeCircuit (circuit : SymPath n) : SymPath n :=
  match bestRotation (openCircuit circuit) with
  | [] => circuit
  | node :: path => node :: path ++ [node]

def buildSymbolicMatrix [DecidableLT K] (adj : Fin n → Fin n → K) : SymMatrix n :=
  fun row column => if row ≠ column ∧ 0 < adj row column then [[row, column]] else []

def combine (left right : SymPath n) : Option (SymPath n) :=
  if left = [] ∨ right = [] ∨ left.getLast? ≠ right.head? then none
  else if pathHasRepeatedNodes (left ++ right.tail) then none
  else some (left ++ right.tail)

def cellPaths (left right : SymMatrix n) (row column : Fin n) : List (SymPath n) :=
  (finRange n).flatMap fun intermediate =>
    (left row intermediate).flatMap fun leftPath =>
      (right intermediate column).filterMap fun rightPath => combine leftPath rightPath

def symbolicMatrixMultiply (left right : SymMatrix n) : SymMatrix n :=
  fun row column => deduplicatePaths (cellPaths left right row column)

def power (base : SymMatrix n) : Nat → SymMatrix n
  | 0 => base
  | k + 1 => symbolicMatrixMultiply (power base k) base

structure CircuitResult (n : Nat) where
  hasCircuit : Bool
  circuits : List (SymPath n)
deriving DecidableEq

def startNodes (startNode : Int) : List (Fin n) :=
  (finRange n).filter fun start => startNode < 0 ∨ (start.val : Int) = startNode

def closedPaths [LE K] [DecidableLE K] (adj : Fin n → Fin n → K) (current : SymMatrix n) (start : Fin n) :
    List (SymPath n) :=
  (finRange n).flatMap fun last =>
    if adj last start ≤ 0 then []
    else ((current start last).filter fun path => path.length = n).map fun path => path ++ [start]

def normalize (startNode : Int) (circuit : SymPath n) : SymPath n :=
  if 0 ≤ startNode then circuit else canonicalizeCircuit circuit

/-- `find_hamiltonian_circuits` on a square matrix. A start node of -1 is any start. The two tests on an entry are
those of the source, `> 0.0` and `<= 0.0`: neither need be the negation of the other. -/
def findHamiltonianCircuits [LE K] [DecidableLT K] [DecidableLE K] (adj : Fin n → Fin n → K) (startNode : Int) :
    Except String (CircuitResult n) :=
  if n < 2 then .ok ⟨false, []⟩
  else if startNode < -1 ∨ (n : Int) ≤ startNode then .error "Start node index is out of range"
  else
    let current := power (buildSymbolicMatrix adj) (n - 2)
    let circuits := keepFirst (fun circuit => pathKey (normalize startNode circuit)) []
      ((startNodes startNode).flatMap (closedPaths adj current))
    .ok ⟨!circuits.isEmpty, circuits⟩

variable {path : SymPath n}

theorem repeatsNode_eq_false {seen : List (Fin n)} :
    repeatsNode seen path = false ↔ path.Nodup ∧ ∀ node ∈ path, node ∉ seen := by
  induction path generalizing seen with
  | nil => simp [repeatsNode]
  | cons node path ih =>
    by_cases hseen : node ∈ seen
    · simp [repeatsNode, hseen]
    · rw [repeatsNode, if_neg hseen, ih, nodup_cons]
      grind

theorem pathHasRepeatedNodes_eq_false : pathHasRepeatedNodes path = false ↔ path.Nodup := by
  simp [pathHasRepeatedNodes, repeatsNode_eq_false]

theorem toList_pathKey (path : SymPath n) :
    (pathKey path).toList = [','].intercalate (path.map fun node => Nat.toDigits 10 node.val) := by
  rw [pathKey, String.toList_intercalate, map_map]
  congr 1
  apply map_congr_left
  intro node _
  exact Nat.toList_repr

theorem splitOn_pathKey (hne : path ≠ []) :
    (pathKey path).toList.splitOn ',' = path.map fun node => Nat.toDigits 10 node.val := by
  rw [toList_pathKey]
  apply splitOn_intercalate
  · intro digits hdigits hcomma
    obtain ⟨node, -, rfl⟩ := mem_map.mp hdigits
    exact absurd (Nat.isDigit_of_mem_toDigits (by decide) (by decide) hcomma) (by decide)
  · simpa using hne

theorem pathKey_ne_empty (hne : path ≠ []) : pathKey path ≠ pathKey ([] : SymPath n) := by
  intro h
  have hsplit := splitOn_pathKey hne
  rw [h] at hsplit
  obtain ⟨node, rest, rfl⟩ := exists_cons_of_ne_nil hne
  have hhead : ([] : List Char) = Nat.toDigits 10 node.val := (List.cons.inj hsplit).1
  exact Nat.toDigits_ne_nil hhead.symm

theorem pathKey_injective : Function.Injective (pathKey : SymPath n → String) := by
  intro p q h
  by_cases hp : p = []
  · by_cases hq : q = []
    · rw [hp, hq]
    · exact absurd (by rw [← h, hp]) (pathKey_ne_empty hq)
  · by_cases hq : q = []
    · exact absurd (by rw [h, hq]) (pathKey_ne_empty hp)
    · have hmap := (splitOn_pathKey hp).symm.trans ((congrArg (fun s => s.toList.splitOn ',') h).trans
        (splitOn_pathKey hq))
      refine map_injective_iff.mpr ?_ hmap
      intro a b hab
      have hval := congrArg (fun digits => Nat.ofDigitChars 10 digits 0) hab
      simp only [Nat.ofDigitChars_ten_toDigits] at hval
      exact Fin.ext hval

variable {key : SymPath n → String} {seen : List String} {paths : List (SymPath n)}

theorem mem_of_mem_keepFirst (h : path ∈ keepFirst key seen paths) : path ∈ paths ∧ key path ∉ seen := by
  induction paths generalizing seen with
  | nil => exact absurd h not_mem_nil
  | cons head paths ih =>
    rw [keepFirst] at h
    split at h
    next hseen => exact ⟨mem_cons_of_mem _ (ih h).1, (ih h).2⟩
    next hseen =>
      rcases mem_cons.mp h with rfl | h
      · exact ⟨mem_cons_self, hseen⟩
      · exact ⟨mem_cons_of_mem _ (ih h).1, fun hmem => (ih h).2 (mem_cons_of_mem _ hmem)⟩

theorem exists_mem_keepFirst (key : SymPath n → String) (h : path ∈ paths) (hseen : key path ∉ seen) :
    ∃ kept ∈ keepFirst key seen paths, key kept = key path := by
  induction paths generalizing seen with
  | nil => exact absurd h not_mem_nil
  | cons head paths ih =>
    rw [keepFirst]
    rcases mem_cons.mp h with rfl | h
    · rw [if_neg hseen]
      exact ⟨path, mem_cons_self, rfl⟩
    · split
      next => exact ih h hseen
      next =>
        by_cases hkey : key path = key head
        · exact ⟨head, mem_cons_self, hkey.symm⟩
        · have hnot : key path ∉ key head :: seen := by simp [hkey, hseen]
          obtain ⟨kept, hkept, heq⟩ := ih h hnot
          exact ⟨kept, mem_cons_of_mem _ hkept, heq⟩

theorem nodup_keepFirst : (keepFirst key seen paths).Nodup := by
  induction paths generalizing seen with
  | nil => exact nodup_nil
  | cons head paths ih =>
    rw [keepFirst]
    split
    next => exact ih
    next =>
      refine nodup_cons.mpr ⟨fun h => ?_, ih⟩
      exact (mem_of_mem_keepFirst h).2 mem_cons_self

theorem mem_keepFirst_iff (hkey : Function.Injective key) : path ∈ keepFirst key [] paths ↔ path ∈ paths := by
  constructor
  · intro h
    exact (mem_of_mem_keepFirst h).1
  · intro h
    obtain ⟨kept, hkept, heq⟩ := exists_mem_keepFirst key h not_mem_nil
    rwa [hkey heq] at hkept

structure IsSimple (adj : Fin n → Fin n → K) (k : Nat) (u v : Fin n) (path : SymPath n) : Prop where
  length : path.length = k + 1
  head : path.head? = some u
  last : path.getLast? = some v
  nodup : path.Nodup
  chain : path.IsChain fun x y => 0 < adj x y

variable {adj : Fin n → Fin n → K} {u v m : Fin n} {k : Nat} {path : SymPath n}

theorem IsSimple.concat (h : IsSimple adj k u m path) (hv : v ∉ path) (hmv : 0 < adj m v) :
    IsSimple adj (k + 1) u v (path ++ [v]) where
  length := by rw [length_append, h.length, length_singleton]
  head := by rw [head?_append, h.head, Option.some_or]
  last := getLast?_concat
  nodup := nodup_append.mpr ⟨h.nodup, nodup_singleton v, by grind⟩
  chain := by
    refine h.chain.append (isChain_singleton v) ?_
    intro x hx y hy
    rw [h.last] at hx
    obtain rfl := Option.some.inj hx
    obtain rfl := Option.some.inj hy
    exact hmv

theorem IsSimple.exists_concat (h : IsSimple adj (k + 1) u v path) :
    ∃ m start, path = start ++ [v] ∧ IsSimple adj k u m start ∧ v ∉ start ∧ 0 < adj m v := by
  obtain ⟨start, rfl⟩ := getLast?_eq_some_iff.mp h.last
  have hlength : start.length = k + 1 := by simpa using h.length
  have hne : start ≠ [] := ne_nil_of_length_eq_add_one hlength
  have hlast := getLast?_eq_some_getLast hne
  obtain ⟨hnodup, -, hdisjoint⟩ := nodup_append.mp h.nodup
  obtain ⟨hchain, -, hedge⟩ := isChain_append.mp h.chain
  refine ⟨start.getLast hne, start, rfl, ⟨hlength, ?_, hlast, hnodup, hchain⟩, ?_, ?_⟩
  · have hhead := h.head
    rwa [head?_append_of_ne_nil _ hne] at hhead
  · intro hv
    exact hdisjoint v hv v mem_cons_self rfl
  · exact hedge _ hlast v rfl

theorem isSimple_one : IsSimple adj 1 u v path ↔ path = [u, v] ∧ u ≠ v ∧ 0 < adj u v := by
  constructor
  · intro h
    obtain ⟨a, b, rfl⟩ := length_eq_two.mp h.length
    obtain rfl : a = u := Option.some.inj h.head
    obtain rfl : b = v := Option.some.inj h.last
    exact ⟨rfl, by simpa using h.nodup, by simpa using h.chain⟩
  · rintro ⟨rfl, hne, hpos⟩
    exact ⟨rfl, rfl, rfl, by simpa using hne, by simpa using hpos⟩

theorem IsSimple.ne (h : IsSimple adj (k + 1) u v path) : u ≠ v := by
  obtain ⟨m, start, rfl, hstart, hv, -⟩ := h.exists_concat
  rintro rfl
  exact hv (mem_of_head? hstart.head)

theorem isSimple_iff : IsSimple adj k u v path ↔ path.length = k + 1 ∧ path.head? = some u ∧ path.getLast? = some v ∧
    path.Nodup ∧ path.IsChain fun x y => x ≠ y ∧ 0 < adj x y := by
  constructor
  · rintro ⟨hlength, hhead, hlast, hnodup, hchain⟩
    refine ⟨hlength, hhead, hlast, hnodup, isChain_iff_getElem.mpr fun i hi => ⟨fun heq => ?_, ?_⟩⟩
    · exact absurd (hnodup.getElem_inj_iff.mp heq) (Nat.ne_of_lt (Nat.lt_succ_self i))
    · exact isChain_iff_getElem.mp hchain i hi
  · rintro ⟨hlength, hhead, hlast, hnodup, hchain⟩
    exact ⟨hlength, hhead, hlast, hnodup, hchain.imp fun _ _ h => h.2⟩

theorem combine_edge {joined : SymPath n} (hlast : path.getLast? = some m) :
    combine path [m, v] = some joined ↔ path.Nodup ∧ v ∉ path ∧ joined = path ++ [v] := by
  have hne : path ≠ [] := by
    rintro rfl
    exact absurd hlast (by simp)
  have hnodup : (path ++ [v]).Nodup ↔ path.Nodup ∧ v ∉ path := by
    rw [nodup_append]
    grind
  rw [combine, if_neg (by simp [hne, hlast]), tail_cons, ← and_assoc, ← hnodup, ← pathHasRepeatedNodes_eq_false]
  cases pathHasRepeatedNodes (path ++ [v]) <;> simp [eq_comm]

variable [DecidableLT K]

theorem mem_buildSymbolicMatrix : path ∈ buildSymbolicMatrix adj u v ↔ path = [u, v] ∧ u ≠ v ∧ 0 < adj u v := by
  rw [buildSymbolicMatrix]
  split
  next h => simp [h]
  next h => simp [h]

theorem mem_cellPaths {left : SymMatrix n} (hleft : ∀ m path, path ∈ left u m ↔ IsSimple adj k u m path) :
    path ∈ cellPaths left (buildSymbolicMatrix adj) u v ↔ IsSimple adj (k + 1) u v path := by
  simp only [cellPaths, mem_flatMap, mem_finRange, true_and, mem_filterMap, mem_buildSymbolicMatrix]
  constructor
  · rintro ⟨m, start, hstart, _, ⟨rfl, -, hpos⟩, hjoin⟩
    have hsimple := (hleft m start).mp hstart
    obtain ⟨-, hv, rfl⟩ := (combine_edge hsimple.last).mp hjoin
    exact hsimple.concat hv hpos
  · intro h
    obtain ⟨m, start, rfl, hsimple, hv, hpos⟩ := h.exists_concat
    refine ⟨m, start, (hleft m start).mpr hsimple, [m, v], ⟨rfl, ?_, hpos⟩, ?_⟩
    · rintro rfl
      exact hv (mem_of_getLast? hsimple.last)
    · exact (combine_edge hsimple.last).mpr ⟨hsimple.nodup, hv, rfl⟩

/-- After `k` products a cell holds the simple paths of `k + 1` edges. -/
theorem mem_power : path ∈ power (buildSymbolicMatrix adj) k u v ↔ IsSimple adj (k + 1) u v path := by
  induction k generalizing v path with
  | zero => exact mem_buildSymbolicMatrix.trans isSimple_one.symm
  | succ k ih =>
    rw [power, symbolicMatrixMultiply, deduplicatePaths, mem_keepFirst_iff pathKey_injective]
    exact mem_cellPaths fun m start => ih

theorem nodup_power (k : Nat) : (power (buildSymbolicMatrix adj) k u v).Nodup := by
  cases k with
  | zero =>
    rw [power, buildSymbolicMatrix]
    split
    · exact nodup_singleton _
    · exact nodup_nil
  | succ k => exact nodup_keepFirst

/-- A cell of the iterated product lists the simple paths with so many edges between its
two nodes, each of them once. -/
theorem symbolic_power_paths (adj : Fin n → Fin n → K) (k : Nat) (hk : 1 ≤ k) (i j : Fin n) :
    (power (buildSymbolicMatrix adj) (k - 1) i j).Nodup ∧ (∀ path, path ∈ power (buildSymbolicMatrix adj) (k - 1) i j ↔
        path.length = k + 1 ∧ path.head? = some i ∧ path.getLast? = some j ∧ path.Nodup ∧
          path.IsChain fun x y => x ≠ y ∧ 0 < adj x y) ∧ power (buildSymbolicMatrix adj) (k - 1) i i = [] := by
  have hmem (path : SymPath n) (j : Fin n) : path ∈ power (buildSymbolicMatrix adj) (k - 1) i j ↔
      IsSimple adj (k - 1 + 1) i j path := mem_power
  refine ⟨nodup_power _, fun path => (hmem path j).trans ?_, eq_nil_iff_forall_not_mem.mpr fun path h => ?_⟩
  · rw [Nat.sub_add_cancel hk]
    exact isSimple_iff
  · exact ((hmem path i).mp h).ne rfl

theorem two_edge_path : [0, 1, 2] ∈ power (buildSymbolicMatrix fun _ _ : Fin 3 => (1 : Int)) 1 0 2 :=
  ((symbolic_power_paths (fun _ _ : Fin 3 => (1 : Int)) 2 (by decide) 0 2).2.1 [0, 1, 2]).mpr (by decide)

end Logistics.CircuitSolver
