import Mathlib.Algebra.Order.Group.Defs
import Mathlib.Data.List.FinRange
import Mathlib.Order.WithBot
import Logistics.LayeredWalks

namespace Logistics.FlowSolver

open Function

variable {V : Nat} {K : Type} [AddCommGroup K] [LinearOrder K]

structure Search (V : Nat) where
  visited : Fin V → Bool
  queue : List (Fin V)
  parent : Fin V → Option (Fin V)

namespace Search

def start (s : Fin V) (parent : Fin V → Option (Fin V)) : Search V where
  visited := update (fun _ => false) s true
  queue := [s]
  parent := update parent s none

def discover (st : Search V) (u v : Fin V) : Search V where
  visited := update st.visited v true
  queue := st.queue ++ [v]
  parent := update st.parent v (some u)

end Search

def scan (residual : Fin V → Fin V → K) (t u : Fin V) : List (Fin V) → Search V → Bool × Search V
  | [], st => (false, st)
  | v :: vs, st =>
    if st.visited v = false ∧ 0 < residual u v then
      if v = t then (true, { st with parent := update st.parent v (some u) })
      else scan residual t u vs (st.discover u v)
    else scan residual t u vs st

def search (residual : Fin V → Fin V → K) (t : Fin V) : Nat → Search V → Bool × Search V
  | 0, st => (false, st)
  | fuel + 1, st =>
    match st.queue with
    | [] => (false, st)
    | u :: queue =>
      let scanned := scan residual t u (List.finRange V) { st with queue }
      if scanned.1 then scanned else search residual t fuel scanned.2

/-- `bfs` within its range checks. A vertex enters the queue once, so that the queue
is empty after as many rounds as there are vertices. -/
def bfs (residual : Fin V → Fin V → K) (s t : Fin V) (parent : Fin V → Option (Fin V)) :
    Bool × (Fin V → Option (Fin V)) :=
  let searched := search residual t V (Search.start s parent)
  (searched.1, searched.2.parent)

def pathTo (parent : Fin V → Option (Fin V)) (source : Fin V) : Nat → Fin V → List (Fin V × Fin V)
  | 0, _ => []
  | fuel + 1, v =>
    if v = source then []
    else
      match parent v with
      | none => []
      | some u => (u, v) :: pathTo parent source fuel u

def pathFlow (residual : Fin V → Fin V → K) (path : List (Fin V × Fin V)) : WithTop K :=
  path.foldl (fun flow e => min flow (residual e.1 e.2 : WithTop K)) ⊤

def addAt (residual : Fin V → Fin V → K) (u v : Fin V) (x : K) : Fin V → Fin V → K :=
  fun a b => if a = u ∧ b = v then residual a b + x else residual a b

def augment (residual : Fin V → Fin V → K) (flow : K) (path : List (Fin V × Fin V)) : Fin V → Fin V → K :=
  path.foldl (fun residual e => addAt (addAt residual e.1 e.2 (-flow)) e.2 e.1 flow) residual

structure State (V : Nat) (K : Type) where
  residual : Fin V → Fin V → K
  parent : Fin V → Option (Fin V)
  maxFlow : K

def State.start (capacity : Fin V → Fin V → K) : State V K := ⟨capacity, fun v => some ⟨0, v.pos⟩, 0⟩

def round (source sink : Fin V) (st : State V K) : Option (State V K) :=
  let found := bfs st.residual source sink st.parent
  if found.1 then
    let path := pathTo found.2 source V sink
    let flow := (pathFlow st.residual path).untopD 0
    some ⟨augment st.residual flow path, found.2, st.maxFlow + flow⟩
  else none

def loop (source sink : Fin V) : Nat → State V K → State V K
  | 0, st => st
  | fuel + 1, st =>
    match round source sink st with
    | none => st
    | some st => loop source sink fuel st

def index? (V : Nat) (i : Int) : Option (Fin V) :=
  if h : 0 ≤ i ∧ i < V then some ⟨i.toNat, (Int.toNat_lt h.1).mpr h.2⟩ else none

def endpoints? (V : Nat) (source sink : Int) : Option (Fin V × Fin V) :=
  match index? V source, index? V sink with
  | some s, some t => if s = t then none else some (s, t)
  | _, _ => none

def fordFulkerson (capacity : Fin V → Fin V → K) (source sink : Int) : K :=
  match endpoints? V source sink with
  | none => 0
  | some (s, t) => (loop s t (V * V * V) (State.start capacity)).maxFlow

def rounds (capacity : Fin V → Fin V → K) (source sink : Int) : Nat → Option (State V K)
  | 0 => some (State.start capacity)
  | n + 1 =>
    match endpoints? V source sink, rounds capacity source sink n with
    | some (s, t), some st => round s t st
    | _, _ => none

open LayeredWalks Finset

variable {residual : Fin V → Fin V → K} {s t u v : Fin V} {st st' : Search V} {level : Fin V → Nat}
  {queue vs : List (Fin V)}

def Positive (residual : Fin V → Fin V → K) (u v : Fin V) : Prop := 0 < residual u v

structure Explored (residual : Fin V → Fin V → K) (s t : Fin V) (level : Fin V → Nat) (pending : List (Fin V))
    (st : Search V) : Prop where
  source : st.visited s ∧ level s = 0
  sink : st.visited t = false
  queued : ∀ v ∈ pending, st.visited v
  parent : ∀ v, st.visited v → v ≠ s →
    ∃ u, st.parent v = some u ∧ st.visited u ∧ Positive residual u v ∧ level v = level u + 1
  closed : ∀ u, st.visited u → u ∉ pending → ∀ v, Positive residual u v → st.visited v ∧ level v ≤ level u + 1
  sorted : pending.Pairwise fun u v => level u ≤ level v
  near : ∀ u ∈ pending, ∀ v, st.visited v → level v ≤ level u + 1

structure Found (residual : Fin V → Fin V → K) (s t : Fin V) (level : Fin V → Nat) (tree : Fin V → Prop)
    (parent : Fin V → Option (Fin V)) : Prop where
  source : level s = 0
  sink : tree t
  layered : Layered (Positive residual) level
  parent : ∀ v, tree v → v ≠ s → ∃ u, parent v = some u ∧ tree u ∧ Positive residual u v ∧ level v = level u + 1

theorem explored_start (hne : s ≠ t) (parent : Fin V → Option (Fin V)) :
    Explored residual s t (fun _ => 0) [s] (Search.start s parent) := by
  have hvisited : ∀ v, (Search.start s parent).visited v = true ↔ v = s := by
    intro v
    change update (fun _ => false) s true v = true ↔ v = s
    rw [update_apply]
    split
    · next h => exact iff_of_true rfl h
    · next h => exact iff_of_false Bool.false_ne_true h
  refine ⟨⟨(hvisited s).mpr rfl, rfl⟩, ?_, ?_, ?_, ?_, List.pairwise_singleton _ _, ?_⟩
  · exact Bool.eq_false_iff.mpr fun h => hne ((hvisited t).mp h).symm
  · intro v hv
    exact (hvisited v).mpr (List.mem_singleton.mp hv)
  · intro v hv hvs
    exact absurd ((hvisited v).mp hv) hvs
  · intro u hu hnot
    exact absurd (List.mem_singleton.mpr ((hvisited u).mp hu)) hnot
  · exact fun _ _ _ _ => Nat.zero_le _

theorem visited_discover {w : Fin V} : (st.discover u v).visited w = true ↔ w = v ∨ st.visited w = true := by
  change update st.visited v true w = true ↔ _
  rw [update_apply]
  split
  · next h => exact iff_of_true rfl (.inl h)
  · next h => exact (or_iff_right h).symm

theorem Explored.discover (h : Explored residual s t level (u :: st.queue) st) (hnew : st.visited v = false)
    (hpos : Positive residual u v) (hvt : v ≠ t) :
    Explored residual s t (update level v (level u + 1)) (u :: (st.discover u v).queue) (st.discover u v) := by
  have hne : ∀ {w}, st.visited w = true → w ≠ v := by
    rintro w hw rfl
    exact Bool.false_ne_true (hnew.symm.trans hw)
  have hlevel : ∀ {w}, st.visited w = true → update level v (level u + 1) w = level w :=
    fun hw => update_of_ne (hne hw) _ _
  have hself : update level v (level u + 1) v = level u + 1 := update_self ..
  have hu : st.visited u = true := h.queued u List.mem_cons_self
  have hmem : ∀ {w}, w ∈ u :: (st.discover u v).queue → w ∈ u :: st.queue ∨ w = v := by
    intro w hw
    exact (List.mem_append.mp hw).imp_right List.mem_singleton.mp
  have hfront : ∀ w ∈ u :: st.queue, level u ≤ level w := by
    intro w hw
    rcases List.mem_cons.mp hw with rfl | hw
    · exact le_rfl
    · exact (List.pairwise_cons.mp h.sorted).1 w hw
  refine ⟨⟨visited_discover.mpr (.inr h.source.1), (hlevel h.source.1).trans h.source.2⟩, ?_, ?_, ?_, ?_, ?_, ?_⟩
  · rw [Bool.eq_false_iff, ne_eq, visited_discover, not_or]
    exact ⟨hvt.symm, Bool.eq_false_iff.mp h.sink⟩
  · intro w hw
    exact visited_discover.mpr ((hmem hw).symm.imp_right fun hold => h.queued w hold)
  · intro w hw hws
    change ∃ p, update st.parent v (some u) w = some p ∧ _
    rcases visited_discover.mp hw with rfl | hold
    · refine ⟨u, update_self .., visited_discover.mpr (.inr hu), hpos, ?_⟩
      rw [hself, hlevel hu]
    · obtain ⟨p, hp, hvisited, hedge, hup⟩ := h.parent w hold hws
      refine ⟨p, ?_, visited_discover.mpr (.inr hvisited), hedge, ?_⟩
      · rw [update_of_ne (hne hold), hp]
      · rw [hlevel hold, hlevel hvisited, hup]
  · intro x hx hnot y hy
    rcases visited_discover.mp hx with rfl | hold
    · exact absurd (List.mem_cons_of_mem u (List.mem_append_right _ List.mem_cons_self)) hnot
    · have hnot' : x ∉ u :: st.queue := fun hmem' => hnot (by
        exact List.mem_append_left _ hmem')
      obtain ⟨hvisited, hle⟩ := h.closed x hold hnot' y hy
      rw [hlevel hold, hlevel hvisited]
      exact ⟨visited_discover.mpr (.inr hvisited), hle⟩
  · rw [Search.discover, ← List.cons_append, List.pairwise_append]
    refine ⟨h.sorted.imp_of_mem fun ha hb hle => ?_, List.pairwise_singleton _ _, fun a ha b hb => ?_⟩
    · rwa [hlevel (h.queued _ ha), hlevel (h.queued _ hb)]
    · rw [List.mem_singleton.mp hb, hself, hlevel (h.queued a ha)]
      exact h.near u List.mem_cons_self a (h.queued a ha)
  · intro p hp w hw
    rcases hmem hp with hold | rfl
    · rw [hlevel (h.queued p hold)]
      rcases visited_discover.mp hw with rfl | hvisited
      · rw [hself]
        exact Nat.succ_le_succ (hfront p hold)
      · rw [hlevel hvisited]
        exact h.near p hold w hvisited
    · rw [hself]
      rcases visited_discover.mp hw with rfl | hvisited
      · rw [hself]
        exact Nat.le_succ _
      · rw [hlevel hvisited]
        exact (h.near u List.mem_cons_self w hvisited).trans (Nat.le_succ _)

theorem Explored.found (h : Explored residual s t level (u :: st.queue) st) (hpos : Positive residual u t) :
    Found residual s t (fun v => if st.visited v then level v else level u + 1) (fun v => st.visited v ∨ v = t)
      (update st.parent t (some u)) := by
  have hu : st.visited u = true := h.queued u List.mem_cons_self
  have hsink : ∀ {v}, st.visited v = true → v ≠ t := by
    rintro v hv rfl
    exact Bool.false_ne_true (h.sink.symm.trans hv)
  refine ⟨by rw [if_pos h.source.1, h.source.2], .inr rfl, ?_, ?_⟩
  · intro x y hedge
    dsimp only
    by_cases hx : st.visited x = true
    · rw [if_pos hx]
      by_cases hpending : x ∈ u :: st.queue
      · split
        · next hy => exact h.near x hpending y hy
        · rcases List.mem_cons.mp hpending with rfl | hqueue
          · exact le_rfl
          · exact Nat.succ_le_succ ((List.pairwise_cons.mp h.sorted).1 x hqueue)
      · obtain ⟨hy, hle⟩ := h.closed x hx hpending y hedge
        rwa [if_pos hy]
    · rw [if_neg hx]
      split
      · next hy => exact (h.near u List.mem_cons_self y hy).trans (Nat.le_succ _)
      · exact Nat.le_succ _
  · rintro v (hv | rfl) hvs
    · obtain ⟨p, hp, hvisited, hedge, hup⟩ := h.parent v hv hvs
      refine ⟨p, ?_, .inl hvisited, hedge, ?_⟩
      · rw [update_of_ne (hsink hv), hp]
      · rw [if_pos hv, if_pos hvisited, hup]
    · refine ⟨u, update_self .., .inl hu, hpos, ?_⟩
      rw [if_neg (Bool.eq_false_iff.mp h.sink), if_pos hu]

def remaining (st : Search V) : Nat := (univ.filter fun v => st.visited v = false).card + st.queue.length

theorem remaining_discover (hnew : st.visited v = false) : remaining (st.discover u v) = remaining st := by
  have hfilter : (univ.filter fun w => (st.discover u v).visited w = false) =
      (univ.filter fun w => st.visited w = false).erase v := by
    ext w
    rw [mem_erase, mem_filter, mem_filter, Bool.eq_false_iff, ne_eq, visited_discover, not_or, ← ne_eq, ← ne_eq,
      ← Bool.eq_false_iff]
    exact ⟨fun hw => ⟨hw.2.1, mem_univ w, hw.2.2⟩, fun hw => ⟨mem_univ w, hw.1, hw.2.2⟩⟩
  have hmem : v ∈ univ.filter fun w => st.visited w = false := mem_filter.mpr ⟨mem_univ v, hnew⟩
  have hpos := card_pos.mpr ⟨v, hmem⟩
  have hlength : (st.discover u v).queue.length = st.queue.length + 1 := List.length_append
  rw [remaining, remaining, hfilter, card_erase_of_mem hmem]
  omega

structure Scanned (residual : Fin V → Fin V → K) (s t u : Fin V) (vs : List (Fin V)) (st st' : Search V) : Prop where
  explored : ∃ level, Explored residual s t level (u :: st'.queue) st'
  visited : ∀ v ∈ vs, Positive residual u v → st'.visited v
  mono : ∀ v, st.visited v → st'.visited v
  remaining : remaining st' = remaining st

theorem scan_spec (vs : List (Fin V)) (h : Explored residual s t level (u :: st.queue) st) :
    ((scan residual t u vs st).1 = true → ∃ level, Found residual s t level
      (fun v => (scan residual t u vs st).2.visited v ∨ v = t) (scan residual t u vs st).2.parent) ∧
    ((scan residual t u vs st).1 = false → Scanned residual s t u vs st (scan residual t u vs st).2) := by
  induction vs generalizing st level with
  | nil => exact ⟨by rintro ⟨⟩, fun _ => ⟨⟨level, h⟩, by rintro v ⟨⟩, fun _ hv => hv, rfl⟩⟩
  | cons v vs ih =>
    rw [scan]
    split
    · next hnew =>
      split
      · next hvt =>
        subst hvt
        exact ⟨fun _ => ⟨_, h.found hnew.2⟩, by rintro ⟨⟩⟩
      · next hvt =>
        obtain ⟨hfound, hscanned⟩ := ih (h.discover hnew.1 hnew.2 hvt)
        refine ⟨hfound, fun hfalse => ?_⟩
        obtain ⟨hexplored, hvisited, hmono, hremaining⟩ := hscanned hfalse
        refine ⟨hexplored, fun w hw hpos => ?_, fun w hw => hmono w (visited_discover.mpr (.inr hw)), ?_⟩
        · rcases List.mem_cons.mp hw with rfl | hw
          · exact hmono w (visited_discover.mpr (.inl rfl))
          · exact hvisited w hw hpos
        · rw [hremaining, remaining_discover hnew.1]
    · next hold =>
      obtain ⟨hfound, hscanned⟩ := ih h
      refine ⟨hfound, fun hfalse => ?_⟩
      obtain ⟨hexplored, hvisited, hmono, hremaining⟩ := hscanned hfalse
      refine ⟨hexplored, fun w hw hpos => ?_, hmono, hremaining⟩
      rcases List.mem_cons.mp hw with rfl | hw
      · exact hmono w (Bool.of_not_eq_false fun hfresh => hold ⟨hfresh, hpos⟩)
      · exact hvisited w hw hpos

theorem Explored.finish (h : Explored residual s t level (u :: queue) st)
    (hvisited : ∀ v, Positive residual u v → st.visited v) : Explored residual s t level queue st where
  source := h.source
  sink := h.sink
  queued v hv := h.queued v (List.mem_cons_of_mem u hv)
  parent := h.parent
  closed x hx hnot y hy := by
    by_cases hxu : x = u
    · subst hxu
      exact ⟨hvisited y hy, h.near x List.mem_cons_self y (hvisited y hy)⟩
    · exact h.closed x hx (fun hmem => (List.mem_cons.mp hmem).elim hxu hnot) y hy
  sorted := (List.pairwise_cons.mp h.sorted).2
  near x hx := h.near x (List.mem_cons_of_mem u hx)

theorem search_spec (fuel : Nat) (h : Explored residual s t level st.queue st) (hfuel : remaining st ≤ fuel) :
    ((search residual t fuel st).1 = true → ∃ level, Found residual s t level
      (fun v => (search residual t fuel st).2.visited v ∨ v = t) (search residual t fuel st).2.parent) ∧
    ((search residual t fuel st).1 = false →
      ∃ level, Explored residual s t level [] (search residual t fuel st).2) := by
  induction fuel generalizing st level with
  | zero =>
    have hempty : st.queue = [] := List.eq_nil_of_length_eq_zero (by unfold remaining at hfuel; omega)
    rw [hempty] at h
    exact ⟨by rintro ⟨⟩, fun _ => ⟨level, h⟩⟩
  | succ fuel ih =>
    rw [search]
    split
    · next hempty =>
      rw [hempty] at h
      exact ⟨by rintro ⟨⟩, fun _ => ⟨level, h⟩⟩
    · next u queue hqueue =>
      rw [hqueue] at h
      have hpopped : Explored residual s t level (u :: ({ st with queue } : Search V).queue) { st with queue } :=
        { h with }
      obtain ⟨hfound, hscanned⟩ := scan_spec (List.finRange V) hpopped
      dsimp only
      split
      · next htrue => exact ⟨hfound, fun hfalse => absurd (htrue.symm.trans hfalse) Bool.noConfusion⟩
      · next hfalse =>
        obtain ⟨⟨level', hexplored⟩, hvisited, -, hremaining⟩ := hscanned (Bool.eq_false_iff.mpr hfalse)
        refine ih (hexplored.finish fun v => hvisited v (List.mem_finRange v)) ?_
        unfold remaining at hfuel hremaining ⊢
        rw [hremaining]
        rw [hqueue, List.length_cons] at hfuel
        dsimp only
        omega

theorem remaining_start (s : Fin V) (parent : Fin V → Option (Fin V)) : remaining (Search.start s parent) ≤ V := by
  have hfilter : (univ.filter fun v => (Search.start s parent).visited v = false) ⊆ univ.erase s := by
    intro v hv
    have hfalse : update (fun _ => false) s true v = false := (mem_filter.mp hv).2
    refine mem_erase.mpr ⟨?_, mem_univ v⟩
    rintro rfl
    rw [update_self] at hfalse
    cases hfalse
  have hcard := card_le_card hfilter
  rw [card_erase_of_mem (mem_univ s), card_univ, Fintype.card_fin] at hcard
  have hpos := s.pos
  change _ + 1 ≤ V
  omega

variable {parent : Fin V → Option (Fin V)}

theorem bfs_true (hne : s ≠ t) (h : (bfs residual s t parent).1 = true) : ∃ level, Found residual s t level
      (fun v => (search residual t V (Search.start s parent)).2.visited v ∨ v = t) (bfs residual s t parent).2 :=
  (search_spec V (explored_start hne parent) (remaining_start s parent)).1 h

/-- After a search in vain, the visited vertices are a saturated cut. -/
theorem bfs_false (hne : s ≠ t) (h : (bfs residual s t parent).1 = false) :
    ∃ S : Finset (Fin V), s ∈ S ∧ t ∉ S ∧ ∀ x ∈ S, ∀ y ∉ S, ¬ Positive residual x y := by
  obtain ⟨level, hexplored⟩ := (search_spec V (explored_start hne parent) (remaining_start s parent)).2 h
  refine ⟨univ.filter fun v => (search residual t V (Search.start s parent)).2.visited v = true, ?_, ?_, ?_⟩
  · exact mem_filter.mpr ⟨mem_univ s, hexplored.source.1⟩
  · exact fun ht => Bool.false_ne_true (hexplored.sink.symm.trans (mem_filter.mp ht).2)
  · intro x hx y hy hpos
    have hvisited := (hexplored.closed x (mem_filter.mp hx).2 List.not_mem_nil y hpos).1
    exact hy (mem_filter.mpr ⟨mem_univ y, hvisited⟩)

theorem Found.steps {tree : Fin V → Prop} (h : Found residual s t level tree parent) (n : Nat) (hv : tree v)
    (hn : level v = n) : Steps (Positive residual) s n v := by
  induction n generalizing v with
  | zero =>
    by_cases hvs : v = s
    · subst hvs
      exact .refl
    · obtain ⟨u, -, -, -, hup⟩ := h.parent v hv hvs
      omega
  | succ n ih =>
    have hvs : v ≠ s := by
      rintro rfl
      have hsource := h.source
      omega
    obtain ⟨u, -, hu, hedge, hup⟩ := h.parent v hv hvs
    exact (ih hu (by omega)).step hedge

theorem Found.isLeast {tree : Fin V → Prop} (h : Found residual s t level tree parent) :
    IsLeast {n | Steps (Positive residual) s n t} (level t) := by
  refine ⟨h.steps _ h.sink rfl, fun n hn => ?_⟩
  have hle := h.layered.le hn
  rwa [h.source, Nat.zero_add] at hle

theorem bfs_eq_true_iff (hne : s ≠ t) : (bfs residual s t parent).1 = true ↔ ∃ n, Steps (Positive residual) s n t := by
  constructor
  · intro h
    obtain ⟨level, hfound⟩ := bfs_true hne h
    exact ⟨level t, hfound.steps _ hfound.sink rfl⟩
  · rintro ⟨n, hsteps⟩
    by_contra hfalse
    obtain ⟨S, hs, ht, hcut⟩ := bfs_false hne (Bool.eq_false_iff.mpr hfalse)
    have hmem {n : Nat} {v : Fin V} (hv : Steps (Positive residual) s n v) : v ∈ S := by
      induction hv with
      | refl => exact hs
      | step _ hedge ih =>
        by_contra hout
        exact hcut _ ih _ hout hedge
    exact ht (hmem hsteps)

structure Agrees (t : Fin V) (x x' : Bool × Search V) : Prop where
  found : x'.1 = x.1
  visited : x'.2.visited = x.2.visited
  queue : x'.2.queue = x.2.queue
  parent : ∀ v, x.2.visited v ∨ x.1 ∧ v = t → x'.2.parent v = x.2.parent v

theorem Agrees.update {w : Fin V} (h : Agrees t (false, st) (false, st')) (hw : w ≠ v → st.visited w) :
    update st'.parent v (some u) w = update st.parent v (some u) w := by
  by_cases hwv : w = v
  · rw [hwv, update_self, update_self]
  · rw [update_of_ne hwv, update_of_ne hwv]
    exact h.parent w (.inl (hw hwv))

theorem Agrees.scan (vs : List (Fin V)) (h : Agrees t (false, st) (false, st')) :
    Agrees t (scan residual t u vs st) (scan residual t u vs st') := by
  induction vs generalizing st st' with
  | nil => exact h
  | cons v vs ih =>
    have hvisited : st'.visited = st.visited := h.visited
    rw [FlowSolver.scan, FlowSolver.scan, congrFun hvisited v]
    split
    · split
      · next hvt =>
        refine ⟨rfl, h.visited, h.queue, fun w hw => h.update fun hwv => ?_⟩
        exact hw.resolve_right fun hwt => hwv (hwt.2.trans hvt.symm)
      · refine ih ⟨rfl, congrArg (fun visited : Fin V → Bool => Function.update visited v true) hvisited,
          congrArg (· ++ [v]) h.queue, fun w hw => h.update fun hwv => ?_⟩
        have hold := hw.resolve_right fun hwt => Bool.false_ne_true hwt.1
        exact (visited_discover.mp hold).resolve_left hwv
    · exact ih h

theorem Agrees.search (fuel : Nat) (h : Agrees t (false, st) (false, st')) :
    Agrees t (search residual t fuel st) (search residual t fuel st') := by
  induction fuel generalizing st st' with
  | zero => exact h
  | succ fuel ih =>
    have hqueue : st'.queue = st.queue := h.queue
    rw [FlowSolver.search, FlowSolver.search, hqueue]
    split
    · exact h
    · next u queue _ =>
      have hpopped : Agrees t (false, { st with queue }) (false, { st' with queue }) := ⟨rfl, h.visited, rfl, h.parent⟩
      have hscanned : Agrees t (FlowSolver.scan residual t u (List.finRange V) { st with queue })
          (FlowSolver.scan residual t u (List.finRange V) { st' with queue }) := hpopped.scan _
      dsimp only
      rw [hscanned.found]
      split
      · exact hscanned
      · refine ih ⟨rfl, hscanned.visited, hscanned.queue, fun v hv => hscanned.parent v (.inl ?_)⟩
        exact hv.resolve_right fun hfound => Bool.false_ne_true hfound.1

theorem agrees_start (parent stale : Fin V → Option (Fin V)) :
    Agrees t (false, Search.start s parent) (false, Search.start s stale) := by
  refine ⟨rfl, rfl, rfl, fun v hv => ?_⟩
  change update stale s none v = update parent s none v
  have hv : update (fun _ => false) s true v = true := hv.resolve_right fun h => Bool.false_ne_true h.1
  by_cases hvs : v = s
  · rw [hvs, update_self, update_self]
  · rw [update_of_ne hvs] at hv
    cases hv

end Logistics.FlowSolver
