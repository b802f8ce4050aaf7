import Mathlib.Data.List.Cycle
import Logistics.CircuitTheorem

namespace Logistics.CircuitSolver

open List

variable {n m : Nat} {K : Type} [Zero K] [LT K] {adj : Fin n → Fin n → K} {s : Fin n}

theorem bestRotation_isRotated (path : SymPath n) : bestRotation path ~r path := by
  have hfold (ks : List Nat) (best : SymPath n) (hbest : best ~r path) :
      ks.foldl (fun best k => if path.rotate (k + 1) < best then path.rotate (k + 1) else best) best ~r path := by
    induction ks generalizing best with
    | nil => exact hbest
    | cons k ks ih =>
      rw [foldl_cons]
      apply ih
      split
      next => exact List.IsRotated.forall path (k + 1)
      next => exact hbest
  exact hfold _ path (List.IsRotated.refl path)

variable {circuit other : SymPath n} {t : Fin n} {middle : SymPath n}

def Closes (s : Fin n) (middle circuit : SymPath n) : Prop := circuit = s :: (middle ++ [s]) ∧ (s :: middle).Nodup

theorem Closes.dropLast (h : Closes s middle circuit) : circuit.dropLast = s :: middle := by
  rw [h.1, ← cons_append, dropLast_concat]

theorem IsHamiltonian.closes (h : IsHamiltonian adj s circuit) : ∃ middle, Closes s middle circuit := by
  obtain ⟨middle, rfl, hs, hcount, -⟩ := h
  refine ⟨middle, rfl, nodup_cons.mpr ⟨hs, nodup_iff_count_le_one.mpr fun v => ?_⟩⟩
  by_cases hv : v = s
  · rw [hv, count_eq_zero_of_not_mem hs]
    exact Nat.zero_le 1
  · exact (hcount v hv).le

theorem Found.closes [LE K] (h : Found adj s circuit) : ∃ middle, Closes s middle circuit := by
  obtain ⟨last, path, rfl, hpath, -⟩ := h
  obtain ⟨middle, rfl⟩ := head?_eq_some_iff.mp hpath.head
  exact ⟨middle, rfl, hpath.nodup⟩

theorem Closes.canonicalizeCircuit (h : Closes s middle circuit) :
    ∃ v rest, Closes v rest (canonicalizeCircuit circuit) ∧ v :: rest = bestRotation circuit.dropLast := by
  have hopen : openCircuit circuit = circuit.dropLast := by
    rw [openCircuit, if_pos]
    rw [h.1, ← cons_append, getLast?_concat]
    exact ⟨by simp, rfl⟩
  have hrotated := bestRotation_isRotated circuit.dropLast
  rw [CircuitSolver.canonicalizeCircuit, hopen]
  split
  next hnil =>
    rw [hnil, h.dropLast] at hrotated
    exact absurd hrotated.symm (by simp)
  next v rest hbest =>
    rw [hbest, h.dropLast] at hrotated
    exact ⟨v, rest, ⟨rfl, hrotated.nodup_iff.mpr h.2⟩, hbest.symm⟩

theorem Closes.canonicalizeCircuit_isRotated (h : Closes s middle circuit) :
    (CircuitSolver.canonicalizeCircuit circuit).dropLast ~r circuit.dropLast := by
  obtain ⟨v, rest, hclosed, hbest⟩ := h.canonicalizeCircuit
  rw [hclosed.dropLast, hbest]
  exact bestRotation_isRotated _

theorem IsHamiltonian.relabel {adj' : Fin m → Fin m → K} (e : Fin n ≃ Fin m)
    (hadj : ∀ u v, 0 < adj' (e u) (e v) ↔ 0 < adj u v) (h : IsHamiltonian adj s circuit) :
    IsHamiltonian adj' (e s) (circuit.map e) := by
  obtain ⟨middle, rfl, hs, hcount, hchain⟩ := h
  refine ⟨middle.map e, by simp, ?_, ?_, ?_⟩
  · rw [mem_map_of_injective e.injective]
    exact hs
  · intro v hv
    obtain ⟨u, rfl⟩ := e.surjective v
    rw [count_map_of_injective _ _ e.injective]
    exact hcount u fun heq => hv (congrArg e heq)
  · rw [isChain_map]
    exact hchain.imp fun u v huv => (hadj u v).mpr huv

theorem bestRotation_le (path : SymPath n) (k : Nat) : bestRotation path ≤ path.rotate k := by
  have hfold (ks : List Nat) (best : SymPath n) :
      let found := ks.foldl (fun best k => if path.rotate (k + 1) < best then path.rotate (k + 1) else best) best
      found ≤ best ∧ ∀ k ∈ ks, found ≤ path.rotate (k + 1) := by
    induction ks generalizing best with
    | nil => exact ⟨le_refl best, fun _ hk => absurd hk not_mem_nil⟩
    | cons k ks ih =>
      simp only [foldl_cons, forall_mem_cons]
      split
      · next hlt => exact ⟨le_trans (ih _).1 (le_of_lt hlt), ih _⟩
      · next hnot => exact ⟨(ih _).1, le_trans (ih _).1 (not_lt.mp hnot), (ih _).2⟩
  obtain ⟨hself, hothers⟩ := hfold (range (path.length - 1)) path
  by_cases hempty : path = []
  · subst hempty
    exact hself
  · rw [← rotate_mod]
    have hlt := Nat.mod_lt k (length_pos_iff.mpr hempty)
    cases hk : k % path.length with
    | zero =>
      rw [rotate_zero]
      exact hself
    | succ j => exact hothers j (mem_range.mpr (by omega))

theorem bestRotation_eq_of_isRotated {p q : SymPath n} (h : p ~r q) : bestRotation p = bestRotation q := by
  have hle {p q : SymPath n} (h : p ~r q) : bestRotation p ≤ bestRotation q := by
    obtain ⟨k, hk⟩ := h.trans (bestRotation_isRotated q).symm
    rw [← hk]
    exact bestRotation_le p k
  exact le_antisymm (hle h) (hle h.symm)

theorem eq_of_isRotated_of_head {p q : SymPath n} (hnodup : (s :: p).Nodup) (h : s :: p ~r s :: q) : p = q := by
  obtain ⟨k, hk⟩ := h
  rw [← rotate_mod] at hk
  have hlt : k % (s :: p).length < (s :: p).length := Nat.mod_lt k (Nat.succ_pos _)
  have hhead := head?_rotate hlt
  rw [hk, head?_cons, getElem?_eq_getElem hlt, Option.some.injEq] at hhead
  have hzero : k % (s :: p).length = 0 :=
    hnodup.getElem_inj_iff.mp (show (s :: p)[k % (s :: p).length] = (s :: p)[0] from hhead.symm)
  rw [hzero, rotate_zero] at hk
  exact (List.cons.inj hk).2

theorem bestRotation_of_head {s : Fin n} (hs : ∀ v : Fin n, s ≤ v) {path : SymPath n} (hnodup : (s :: path).Nodup) :
    bestRotation (s :: path) = s :: path := by
  have hle := bestRotation_le (s :: path) 0
  rw [rotate_zero] at hle
  refine le_antisymm hle ?_
  have hrotated := bestRotation_isRotated (s :: path)
  cases hbest : bestRotation (s :: path) with
  | nil =>
    rw [hbest] at hrotated
    exact absurd hrotated.symm (by simp)
  | cons v rest =>
    by_cases hv : v = s
    · subst hv
      rw [hbest] at hrotated
      rw [eq_of_isRotated_of_head hnodup hrotated.symm]
    · exact le_of_lt (List.Lex.rel (lt_of_le_of_ne (hs v) (Ne.symm hv)))

theorem IsHamiltonian.rotate (h : IsHamiltonian adj s circuit) (t : Fin n) :
    ∃ turned, IsHamiltonian adj t turned ∧ turned.dropLast ~r circuit.dropLast := by
  by_cases ht : t = s
  · exact ⟨circuit, ht ▸ h, List.IsRotated.refl _⟩
  obtain ⟨middle, rfl, hs, hcount, hchain⟩ := h
  obtain ⟨before, after, rfl⟩ := append_of_mem (count_pos_iff.mp (hcount t ht ▸ Nat.one_pos))
  rw [append_assoc, ← cons_append] at hchain
  obtain ⟨hfirst, hsecond⟩ := isChain_split.mp hchain
  refine ⟨t :: ((after ++ s :: before) ++ [t]), ⟨after ++ s :: before, rfl, ?_, fun v hv => ?_, ?_⟩, ?_⟩
  · have hone := hcount t ht
    rw [count_append, count_cons_self] at hone
    rw [← count_eq_zero, count_append, count_cons_of_ne (Ne.symm ht)]
    omega
  · by_cases hvs : v = s
    · subst hvs
      have hzero := count_eq_zero.mpr hs
      rw [count_append, count_cons_of_ne ht] at hzero
      rw [count_append, count_cons_self]
      omega
    · have hone := hcount v hvs
      rw [count_append, count_cons_of_ne (Ne.symm hv)] at hone
      rw [count_append, count_cons_of_ne (Ne.symm hvs)]
      omega
  · rw [append_assoc, cons_append, ← cons_append]
    exact isChain_split.mpr ⟨hsecond, hfirst⟩
  · have hdrop (u : Fin n) (l : SymPath n) : (u :: (l ++ [u])).dropLast = u :: l := by
      rw [← cons_append, dropLast_concat]
    rw [hdrop, hdrop, ← cons_append]
    exact isRotated_append

theorem Closes.eq_of_dropLast_eq {rest : SymPath n} (h : Closes s middle circuit) (h' : Closes t rest other)
    (heq : circuit.dropLast = other.dropLast) : circuit = other := by
  rw [h.dropLast, h'.dropLast] at heq
  obtain ⟨rfl, rfl⟩ := List.cons.inj heq
  rw [h.1, h'.1]

theorem Closes.eq_of_isRotated {rest : SymPath n} (h : Closes s middle circuit) (h' : Closes s rest other)
    (hrotated : circuit.dropLast ~r other.dropLast) : circuit = other := by
  refine h.eq_of_dropLast_eq h' ?_
  rw [h.dropLast, h'.dropLast] at hrotated ⊢
  rw [eq_of_isRotated_of_head h.2 hrotated]

theorem canonicalizeCircuit_eq_iff {rest : SymPath n} (h : Closes s middle circuit) (h' : Closes t rest other) :
    canonicalizeCircuit circuit = canonicalizeCircuit other ↔ circuit.dropLast ~r other.dropLast := by
  constructor
  · intro heq
    have hrotated := h.canonicalizeCircuit_isRotated
    rw [heq] at hrotated
    exact hrotated.symm.trans h'.canonicalizeCircuit_isRotated
  · intro hrotated
    obtain ⟨v, path, hclosed, hbest⟩ := h.canonicalizeCircuit
    obtain ⟨v', path', hclosed', hbest'⟩ := h'.canonicalizeCircuit
    refine hclosed.eq_of_dropLast_eq hclosed' ?_
    rw [hclosed.dropLast, hclosed'.dropLast, hbest, hbest', bestRotation_eq_of_isRotated hrotated]

theorem canonicalizeCircuit_of_first (hs : ∀ v : Fin n, s ≤ v) (h : Closes s middle circuit) :
    canonicalizeCircuit circuit = circuit := by
  obtain ⟨v, rest, hclosed, hbest⟩ := h.canonicalizeCircuit
  refine hclosed.eq_of_dropLast_eq h ?_
  rw [hclosed.dropLast, hbest, h.dropLast, bestRotation_of_head hs h.2]

variable {key : SymPath n → String} {seen : List String} {paths later : List (SymPath n)}

theorem keepFirst_congr {key' : SymPath n → String} (h : ∀ path ∈ paths, key path = key' path) :
    keepFirst key seen paths = keepFirst key' seen paths := by
  induction paths generalizing seen with
  | nil => rfl
  | cons path paths ih =>
    have hrest (seen : List String) : keepFirst key seen paths = keepFirst key' seen paths :=
      ih fun p hp => h p (mem_cons_of_mem _ hp)
    rw [keepFirst, keepFirst, h path mem_cons_self, hrest, hrest]

theorem keepFirst_append (h : ∀ path ∈ later, key path ∈ seen ∨ ∃ first ∈ paths, key first = key path) :
    keepFirst key seen (paths ++ later) = keepFirst key seen paths := by
  induction paths generalizing seen with
  | nil =>
    rw [nil_append, keepFirst]
    induction later with
    | nil => rfl
    | cons path later ih =>
      have hpath : key path ∈ seen := by
        rcases h path mem_cons_self with hseen | ⟨_, hmem, -⟩
        · exact hseen
        · exact absurd hmem not_mem_nil
      rw [keepFirst, if_pos hpath]
      exact ih fun p hp => h p (mem_cons_of_mem _ hp)
  | cons head paths ih =>
    rw [cons_append, keepFirst, keepFirst]
    split
    next hseen =>
      refine ih fun path hpath => ?_
      rcases h path hpath with hmem | ⟨first, hfirst, hkey⟩
      · exact .inl hmem
      · rcases mem_cons.mp hfirst with rfl | hfirst
        · exact .inl (hkey ▸ hseen)
        · exact .inr ⟨first, hfirst, hkey⟩
    next =>
      refine congrArg _ (ih fun path hpath => ?_)
      rcases h path hpath with hmem | ⟨first, hfirst, hkey⟩
      · exact .inl (mem_cons_of_mem _ hmem)
      · rcases mem_cons.mp hfirst with rfl | hfirst
        · exact .inl (hkey ▸ mem_cons_self)
        · exact .inr ⟨first, hfirst, hkey⟩

theorem keepFirst_concat {path : SymPath n} (hseen : key path ∉ seen) (hpaths : ∀ first ∈ paths, key first ≠ key path) :
    keepFirst key seen (paths ++ [path]) = keepFirst key seen paths ++ [path] := by
  induction paths generalizing seen with
  | nil => simp only [nil_append, keepFirst, if_neg hseen]
  | cons head paths ih =>
    obtain ⟨hhead, hpaths⟩ := forall_mem_cons.mp hpaths
    rw [cons_append, keepFirst, keepFirst]
    split
    next => exact ih hseen hpaths
    next =>
      have hnot : key path ∉ key head :: seen := by simp [hseen, hhead.symm]
      rw [ih hnot hpaths, cons_append]

theorem startNodes_any : (startNodes (-1) : List (Fin n)) = finRange n := filter_eq_self.mpr fun _ _ => by simp

theorem startNodes_first : (startNodes 0 : List (Fin (m + 1))) = [0] := by
  rw [startNodes, finRange_succ, filter_cons_of_pos (by simp), filter_eq_nil_iff.mpr]
  intro v hv
  obtain ⟨u, -, rfl⟩ := mem_map.mp hv
  have hne : ¬ ((u.succ.val : Int) = 0) := by
    rw [Fin.val_succ]
    omega
  simpa using hne

variable [LE K] [DecidableLT K] [DecidableLE K]

theorem findHamiltonianCircuits_any_eq (hn : 2 ≤ n) (adj : Fin n → Fin n → K) (hdecided : ∀ s, Decided adj s) :
    findHamiltonianCircuits adj (-1) = findHamiltonianCircuits adj 0 := by
  obtain ⟨m, rfl⟩ : ∃ m, n = m + 1 := ⟨n - 1, by omega⟩
  have hfirst : ∀ v : Fin (m + 1), 0 ≤ v := Fin.zero_le
  have hclosed (s : Fin (m + 1)) (circuit : SymPath (m + 1)) :
      circuit ∈ closedPaths adj (power (buildSymbolicMatrix adj) (m + 1 - 2)) s ↔ IsHamiltonian adj s circuit :=
    (mem_closedPaths hn).trans (found_iff hn (hdecided s))
  have hkeep : keepFirst (fun circuit => pathKey (normalize (-1) circuit)) []
      ((startNodes (-1)).flatMap (closedPaths adj (power (buildSymbolicMatrix adj) (m + 1 - 2)))) =
      keepFirst (fun circuit => pathKey (normalize 0 circuit)) []
        ((startNodes 0).flatMap (closedPaths adj (power (buildSymbolicMatrix adj) (m + 1 - 2)))) := by
    rw [startNodes_any, startNodes_first, finRange_succ, flatMap_cons, flatMap_singleton, keepFirst_append]
    · refine keepFirst_congr fun circuit hcircuit => ?_
      obtain ⟨middle, h⟩ := ((hclosed 0 circuit).mp hcircuit).closes
      rw [normalize, if_neg (by decide), normalize, if_pos (Int.le_refl 0), canonicalizeCircuit_of_first hfirst h]
    · intro circuit hcircuit
      obtain ⟨s, -, hs⟩ := mem_flatMap.mp hcircuit
      have h := (hclosed s circuit).mp hs
      obtain ⟨turned, hturned, hrotated⟩ := h.rotate 0
      refine .inr ⟨turned, (hclosed 0 turned).mpr hturned, congrArg pathKey ?_⟩
      obtain ⟨middle, hcloses⟩ := h.closes
      obtain ⟨middle', hcloses'⟩ := hturned.closes
      exact (canonicalizeCircuit_eq_iff hcloses' hcloses).mpr hrotated
  obtain ⟨circuits, hresult, rfl⟩ := findHamiltonianCircuits_eq hn adj (-1) (by omega) (by omega)
  obtain ⟨circuits', hresult', rfl⟩ := findHamiltonianCircuits_eq hn adj 0 (by omega) (by omega)
  rw [hresult, hresult', hkeep]

theorem circuits_any (hn : 2 ≤ n) (adj : Fin n → Fin n → K) (hdecided : ∀ s, Decided adj s) :
    ∃ circuits, findHamiltonianCircuits adj (-1) = .ok ⟨!circuits.isEmpty, circuits⟩ ∧
      (∀ circuit ∈ circuits, ∃ s, IsHamiltonian adj s circuit) ∧
      ∀ s circuit, IsHamiltonian adj s circuit → ∃ found ∈ circuits, found.dropLast ~r circuit.dropLast := by
  obtain ⟨circuits, hresult, -, hmem⟩ := circuits_from hn adj ⟨0, by omega⟩
  simp only [found_iff hn (hdecided _)] at hmem
  refine ⟨circuits, (findHamiltonianCircuits_any_eq hn adj hdecided).trans hresult,
    fun circuit h => ⟨_, (hmem circuit).mp h⟩, fun s circuit h => ?_⟩
  obtain ⟨turned, hturned, hrotated⟩ := h.rotate ⟨0, by omega⟩
  exact ⟨turned, (hmem turned).mpr hturned, hrotated⟩

/-- What the search without a start node is meant to find: one circuit of every rotation class, those that the search
from the first node finds, and whether there is one does not depend on the start. -/
def AnyStart (adj : Fin n → Fin n → K) : Prop :=
  findHamiltonianCircuits adj (-1) = findHamiltonianCircuits adj 0 ∧
    ∃ result, findHamiltonianCircuits adj (-1) = .ok result ∧ result.circuits.Nodup ∧
      (∀ circuit ∈ result.circuits, ∃ s, IsHamiltonian adj s circuit) ∧
      (∀ s circuit, IsHamiltonian adj s circuit →
        ∃! found, found ∈ result.circuits ∧ found.dropLast ~r circuit.dropLast) ∧
      ∀ s : Fin n, ∃ other, findHamiltonianCircuits adj s.val = .ok other ∧ other.hasCircuit = result.hasCircuit

theorem anyStart (hn : 2 ≤ n) (adj : Fin n → Fin n → K) (hdecided : ∀ s, Decided adj s) : AnyStart adj := by
  have hfirst := findHamiltonianCircuits_any_eq hn adj hdecided
  have hfrom (s : Fin n) := circuits_from hn adj s
  simp only [found_iff hn (hdecided _)] at hfrom
  obtain ⟨circuits, hresult, hnodup, hmem⟩ := hfrom ⟨0, by omega⟩
  have hzero : findHamiltonianCircuits adj 0 = .ok ⟨!circuits.isEmpty, circuits⟩ := hresult
  refine ⟨hfirst, ⟨!circuits.isEmpty, circuits⟩, hfirst.trans hzero, hnodup, fun circuit h => ⟨_, (hmem circuit).mp h⟩,
    fun s circuit h => ?_, fun s => ?_⟩
  · obtain ⟨turned, hturned, hrotated⟩ := h.rotate ⟨0, by omega⟩
    refine ⟨turned, ⟨(hmem turned).mpr hturned, hrotated⟩, ?_⟩
    rintro found ⟨hfound, hrotated'⟩
    obtain ⟨middle, hclosed⟩ := ((hmem found).mp hfound).closes
    obtain ⟨middle', hclosed'⟩ := hturned.closes
    exact hclosed.eq_of_isRotated hclosed' (hrotated'.trans hrotated.symm)
  · obtain ⟨others, hothers, -, hmem'⟩ := hfrom s
    refine ⟨⟨!others.isEmpty, others⟩, hothers, ?_⟩
    have hiff : (!others.isEmpty) = true ↔ (!circuits.isEmpty) = true := by
      simp only [Bool.not_eq_true', isEmpty_eq_false_iff_exists_mem]
      constructor
      · rintro ⟨circuit, hcircuit⟩
        obtain ⟨turned, hturned, -⟩ := ((hmem' circuit).mp hcircuit).rotate ⟨0, by omega⟩
        exact ⟨turned, (hmem turned).mpr hturned⟩
      · rintro ⟨circuit, hcircuit⟩
        obtain ⟨turned, hturned, -⟩ := ((hmem circuit).mp hcircuit).rotate s
        exact ⟨turned, (hmem' turned).mpr hturned⟩
    exact Bool.eq_iff_iff.mpr hiff

theorem append_lt_append {p q x y : SymPath n} (h : p < q) (hlength : p.length = q.length) : p ++ x < q ++ y := by
  induction h with
  | nil => cases hlength
  | cons _ ih => exact List.Lex.cons (ih (Nat.succ.inj hlength))
  | rel h => exact List.Lex.rel h

theorem Closes.canonicalizeCircuit_le {rest : SymPath n} (h : Closes s middle circuit) (h' : Closes t rest other)
    (hrotated : other.dropLast ~r circuit.dropLast) : CircuitSolver.canonicalizeCircuit circuit ≤ other := by
  obtain ⟨v, path, hclosed, hbest⟩ := h.canonicalizeCircuit
  obtain ⟨k, hk⟩ := hrotated.symm
  have hle := bestRotation_le circuit.dropLast k
  have hlength : (v :: path).length = (t :: rest).length := by
    rw [hbest, ← h'.dropLast]
    exact ((bestRotation_isRotated _).trans hrotated.symm).perm.length_eq
  rw [hk, ← hbest, h'.dropLast] at hle
  rcases hle.eq_or_lt with heq | hlt
  · exact (hclosed.eq_of_dropLast_eq h' (by rw [hclosed.dropLast, h'.dropLast, heq])).le
  · rw [hclosed.1, h'.1]
    exact (append_lt_append hlt hlength).le

/-- The canonical form of a closed circuit is its least rotation, and the circuits with
one canonical form are the rotations of each other. So the search without a start node
drops a circuit just when it has a rotation of it already. -/
theorem canonical_circuits (circuit : SymPath n) (h : ∃ s middle, Closes s middle circuit) :
    (∃ s middle, Closes s middle (canonicalizeCircuit circuit)) ∧
      (canonicalizeCircuit circuit).dropLast ~r circuit.dropLast ∧ (∀ other, (∃ t rest, Closes t rest other) →
        (other.dropLast ~r circuit.dropLast → canonicalizeCircuit circuit ≤ other) ∧
        (canonicalizeCircuit circuit = canonicalizeCircuit other ↔ circuit.dropLast ~r other.dropLast)) ∧
      (∀ p q : SymPath n, p ≠ [] → q ≠ [] → pathKey p = pathKey q → p = q) ∧
      ∀ reported : List (SymPath n), (∀ other ∈ reported, ∃ t rest, Closes t rest other) →
        let kept := keepFirst (fun circuit => pathKey (normalize (-1) circuit)) []
        kept (reported ++ [circuit]) = kept reported ++
          if (kept reported).any fun other => other.dropLast ~r circuit.dropLast then [] else [circuit] := by
  obtain ⟨s, middle, h⟩ := h
  obtain ⟨v, path, hclosed, -⟩ := h.canonicalizeCircuit
  refine ⟨⟨v, path, hclosed⟩, h.canonicalizeCircuit_isRotated, ?_, fun p q _ _ hkey => pathKey_injective hkey, ?_⟩
  · rintro other ⟨t, rest, h'⟩
    exact ⟨h.canonicalizeCircuit_le h', canonicalizeCircuit_eq_iff h h'⟩
  · intro reported hreported kept
    have hkey : ∀ other ∈ reported, pathKey (normalize (-1) other) = pathKey (normalize (-1) circuit) ↔
        other.dropLast ~r circuit.dropLast := by
      intro other hother
      obtain ⟨t, rest, h'⟩ := hreported other hother
      exact pathKey_injective.eq_iff.trans (canonicalizeCircuit_eq_iff h' h)
    split
    next hfound =>
      obtain ⟨other, hother, hrotated⟩ := any_eq_true.mp hfound
      have hmem := (mem_of_mem_keepFirst hother).1
      rw [append_nil]
      refine keepFirst_append fun path hpath => .inr ⟨other, hmem, ?_⟩
      rw [mem_singleton.mp hpath]
      exact (hkey other hmem).mpr (of_decide_eq_true hrotated)
    next hnone =>
      refine keepFirst_concat not_mem_nil fun first hfirst heq => hnone ?_
      obtain ⟨kept, hkept, hsame⟩ := exists_mem_keepFirst (fun circuit => pathKey (normalize (-1) circuit)) hfirst
        not_mem_nil
      have hrotated := (hkey kept (mem_of_mem_keepFirst hkept).1).mp (hsame.trans heq)
      exact any_eq_true.mpr ⟨kept, hkept, decide_eq_true hrotated⟩

theorem canonical_of_triangle : canonicalizeCircuit [2, 0, 1, 2] = canonicalizeCircuit ([1, 2, 0, 1] : SymPath 3) :=
  (((canonical_circuits [2, 0, 1, 2] ⟨2, [0, 1], rfl, by decide⟩).2.2.1 [1, 2, 0, 1]
    ⟨1, [2, 0], rfl, by decide⟩).2).mpr ⟨2, rfl⟩

variable {L : Type} [Zero L] [LinearOrder L]

/-- The search without a start node does what it is meant to do exactly when no path along positive entries through
all nodes comes back to its start over a NaN. -/
theorem any_start_search_iff (hn : 2 ≤ n) (adj : Fin n → Fin n → Double L) :
    AnyStart adj ↔ ∀ s last path, IsSimple adj (n - 1) s last path → adj last s ≠ .nan := by
  constructor
  · rintro ⟨-, result, hok, -, hsound, -⟩ s last path hpath hnan
    obtain ⟨circuits, hresult, rfl⟩ := findHamiltonianCircuits_eq hn adj (-1) (by omega) (by omega)
    obtain rfl := Except.ok.inj (hresult.symm.trans hok)
    obtain ⟨hfound, hnot⟩ := found_over_nan hn hpath hnan
    have hcandidate : path ++ [s] ∈ (startNodes (-1)).flatMap
        (closedPaths adj (power (buildSymbolicMatrix adj) (n - 2))) :=
      (mem_candidates hn).mpr ⟨s, .inl (by decide), hfound⟩
    obtain ⟨kept, hkept, hkey⟩ := exists_mem_keepFirst (fun circuit => pathKey (normalize (-1) circuit)) hcandidate
      not_mem_nil
    obtain ⟨t, hcircuit⟩ := hsound kept hkept
    obtain ⟨rest, hkeptCloses⟩ := hcircuit.closes
    obtain ⟨middle, hcloses⟩ := hfound.closes
    obtain ⟨turned, hturned, hrotated⟩ := hcircuit.rotate s
    obtain ⟨middle', hcloses'⟩ := hturned.closes
    have hsame := (canonicalizeCircuit_eq_iff hkeptCloses hcloses).mp (pathKey_injective hkey)
    exact hnot (hcloses'.eq_of_isRotated hcloses (hrotated.trans hsame) ▸ hturned)
  · intro hclear
    exact anyStart hn adj fun s => decided_of_ne_nan (hclear s)

theorem triangle_any_start : findHamiltonianCircuits triangle (-1) = findHamiltonianCircuits triangle 0 :=
  ((any_start_search_iff (by decide) triangle).mpr triangle_decided).1

theorem any_start_over_nan : findHamiltonianCircuits closedOverNan (-1) = .ok ⟨true, [[1, 0, 1]]⟩ ∧
    findHamiltonianCircuits closedOverNan 0 = .ok ⟨false, []⟩ ∧ ¬ AnyStart closedOverNan := by
  have hany : findHamiltonianCircuits closedOverNan (-1) = .ok ⟨true, [[1, 0, 1]]⟩ := by decide +kernel
  have hfirst : findHamiltonianCircuits closedOverNan 0 = .ok ⟨false, []⟩ := by decide +kernel
  refine ⟨hany, hfirst, fun h => ?_⟩
  have heq := h.1
  rw [hany, hfirst] at heq
  cases heq

end Logistics.CircuitSolver
