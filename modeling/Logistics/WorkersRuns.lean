import Logistics.Sessions

namespace Logistics.Sessions

open KeyedTable RowVersions Database List Option

section

variable {n : Nat} {env : Env} {stmt : Stmt} {r : stmt.Res} {db db' v v' : Db} {t u : TransactionRow} {x y : Session}
  {s : State n} {w : Fin n} {ps : List Nat} {k : stmt.Res → Work (List Nat)} {thrown : List Nat}

def Reports : Work (List Nat) → List Nat → List Nat → Prop
  | .rollback orders, _, _ => orders = []
  | .commit orders _, ts, ss => orders.Sublist ts ∧ ss ⊆ ts
  | .exec stmt _ k, ts, ss => ∀ v r, Reports (k r) (ts ++ taken v stmt r) (ss ++ sourced stmt)

structure SessionInv (db : Db) (ps : List Nat) (x : Session) : Prop where
  fresh : ∀ t ∈ x.own.transactions, t.transactionId < db.nextId
  follows : ∀ id t, (visible db x.own).transactions.find? id = some t →
    Follows x.taken x.sourced (db.transactions.find? id) t
  held : ∀ id ∈ x.taken, ∃ t, latest TransactionRow.transactionId x.own.transactions id = some t ∧ t.status ≠ .pending
  nodup : x.taken.Nodup
  new : ∀ id ∈ x.taken, id ∉ ps
  reports : Reports x.work x.taken x.sourced

def Apart (own other : Writes) : Prop :=
  ∀ t ∈ own.transactions, ∀ u ∈ other.transactions, t.transactionId ≠ u.transactionId

def State.past (s : State n) : List Nat := s.commits.flatMap Commit.taken

def Settled (db : Db) (ps : List Nat) : Prop := ∀ id ∈ ps, ∃ t, db.transactions.find? id = some t ∧ t.status ≠ .pending

structure Inv (s : State n) : Prop where
  sessions : ∀ w, ∀ x ∈ s.session w, SessionInv s.db s.past x
  apart : ∀ w w', w ≠ w' → ∀ x ∈ s.session w, ∀ y ∈ s.session w', Apart x.own y.own
  settled : Settled s.db s.past
  ordered : s.orders ⊆ s.past
  single : SingleAssignment s

theorem find?_visible (db : Db) (own : Writes) (id : Nat) : (visible db own).transactions.find? id =
    (latest TransactionRow.transactionId own.transactions id).or (db.transactions.find? id) :=
  find?_overlay ..

variable {other : Writes}

theorem Apart.symm {own : Writes} (h : Apart own other) : Apart other own :=
  fun t ht u hu he => h u hu t ht he.symm

variable {id : Nat}

theorem Apart.latest_eq_none {own : Writes} (h : Apart own other)
    (ht : latest TransactionRow.transactionId own.transactions id = some t) :
    latest TransactionRow.transactionId other.transactions id = none := by
  obtain ⟨hmem, hid⟩ := mem_of_latest ht
  rw [RowVersions.latest_eq_none, List.mem_map]
  rintro ⟨u, hu, he⟩
  exact h t hmem u hu (hid.trans he.symm)

theorem SessionInv.start {work : Work (List Nat)} (hw : Reports work [] []) :
    SessionInv db ps ⟨work, ⟨[], []⟩, [], []⟩ := by
  refine ⟨by simp, fun id t ht => ?_, by simp, nodup_nil, by simp, hw⟩
  have hdb : db.transactions.find? id = some t := by simpa [find?_visible, latest] using ht
  rw [hdb]
  exact .refl t

theorem SessionInv.congr (h : SessionInv db ps x) (htable : db'.transactions = db.transactions)
    (hnext : db.nextId ≤ db'.nextId) : SessionInv db' ps x := by
  refine { h with fresh := fun t ht => (h.fresh t ht).trans_le hnext, follows := fun id t ht => ?_ }
  rw [htable]
  apply h.follows
  rwa [find?_visible, htable, ← find?_visible] at ht

theorem Settled.not_pending (hs : Settled db ps) (hx : SessionInv db ps x) (hid : id ∈ ps)
    (ht : (visible db x.own).transactions.find? id = some t) : t.status ≠ .pending := by
  obtain ⟨u, hu, hne⟩ := hs id hid
  have hfollows := hx.follows id t ht
  rw [hu] at hfollows
  exact hfollows.not_pending hne

theorem SessionInv.held_visible (hx : SessionInv db ps x) (hid : id ∈ x.taken) :
    ∃ t, (visible db x.own).transactions.find? id = some t ∧ t.status ≠ .pending := by
  obtain ⟨t, ht, hne⟩ := hx.held id hid
  exact ⟨t, by rw [find?_visible, ht]; rfl, hne⟩

section Statement

variable (hx : SessionInv db ps x)

theorem visible_executed (x : Session) (stmt : Stmt) (htable : v'.transactions = overlay (visible db x.own).transactions
    (written (visible db x.own) v' stmt).transactions) :
    (visible (db.undo v') (x.own.append (written (visible db x.own) v' stmt))).transactions = v'.transactions := by
  rw [htable]
  exact overlay_append ..

variable (ht : Version (visible db x.own) v' stmt r t)

include ht in
theorem latest_version (id : Nat) : latest TransactionRow.transactionId
    (x.own.append (written (visible db x.own) v' stmt)).transactions id =
      if t.transactionId = id then some t else latest TransactionRow.transactionId x.own.transactions id := by
  rw [Writes.append, ht.written]
  by_cases hid : t.transactionId = id <;> simp [latest, hid]

include hx

theorem sessionInv_untouched
    (hr : Reports (k r) (x.taken ++ taken (visible db x.own) stmt r) (x.sourced ++ sourced stmt))
    (h : Untouched (visible db x.own) v' stmt r) :
    SessionInv (db.undo v') ps (x.executed (visible db x.own) v' stmt k r) := by
  obtain ⟨hwritten, htable, htaken⟩ := h
  have hvisible := visible_executed x stmt (htable.trans (by rw [hwritten]; rfl))
  have hown : (x.own.append (written (visible db x.own) v' stmt)).transactions = x.own.transactions := by
    rw [Writes.append, hwritten, append_nil]
  have htaken' : x.taken ++ taken (visible db x.own) stmt r = x.taken := by rw [htaken, append_nil]
  refine ⟨fun t ht => ?_, fun id t ht => ?_, ?_, ?_, ?_, hr⟩
  · rw [Session.executed, hown] at ht
    exact (hx.fresh t ht).trans_le (Nat.le_max_left _ _)
  · rw [Session.executed, hvisible, htable] at ht
    exact (hx.follows id t ht).mono _ _
  · rw [Session.executed, hown, htaken']
    exact hx.held
  · rw [Session.executed, htaken']
    exact hx.nodup
  · rw [Session.executed, htaken']
    exact hx.new

variable (hsettled : Settled db ps)

include ht

theorem follows_version (hu : v'.transactions.find? id = some u) :
    Follows (x.taken ++ taken (visible db x.own) stmt r) (x.sourced ++ sourced stmt) (db.transactions.find? id) u := by
  rw [ht.table, find?_put] at hu
  split at hu
  · next hid =>
    cases hu
    subst hid
    have hnew := ht.follows
    cases hseen : (visible db x.own).transactions.find? t.transactionId with
    | none =>
      rw [hseen] at hnew
      rw [find?_visible, or_eq_none_iff] at hseen
      rw [hseen.2]
      exact ⟨by simp, by simp, fun h hne => mem_append_right _ (hnew.leaves (by simp) hne)⟩
    | some o =>
      rw [hseen] at hnew
      exact (hx.follows _ o hseen).trans hnew (Table.find?_eq_some.mp hseen).2.symm
  · exact (hx.follows id u hu).mono _ _

theorem held_version (hid : id ∈ x.taken ++ taken (visible db x.own) stmt r) : ∃ u, latest TransactionRow.transactionId
      (x.own.append (written (visible db x.own) v' stmt)).transactions id = some u ∧ u.status ≠ .pending := by
  rw [latest_version ht]
  rcases mem_append.mp hid with hid | hid
  · split
    · next he =>
      obtain ⟨o, ho, hne⟩ := hx.held_visible hid
      have hfollows := ht.follows
      rw [he, ho] at hfollows
      exact ⟨t, rfl, hfollows.not_pending hne⟩
    · exact hx.held id hid
  · rcases ht.takes with h | ⟨h, -, hne⟩
    · rw [h] at hid
      cases hid
    · rw [h] at hid
      exact ⟨t, if_pos (mem_singleton.mp hid).symm, hne⟩

include hsettled

theorem new_version (hid : id ∈ taken (visible db x.own) stmt r) : id ∉ x.taken ∧ id ∉ ps := by
  rcases ht.takes with h | ⟨h, hpending, -⟩
  · rw [h] at hid
    cases hid
  · rw [h, mem_singleton] at hid
    subst hid
    constructor
    · intro hmem
      obtain ⟨o, ho, hne⟩ := hx.held_visible hmem
      exact hne (hpending o ho)
    · intro hmem
      obtain ⟨o, ho, hne⟩ := hsettled _ hmem
      have hseen : ∃ u, (visible db x.own).transactions.find? t.transactionId = some u := by
        rw [find?_visible, ho]
        cases latest TransactionRow.transactionId x.own.transactions t.transactionId <;> simp
      obtain ⟨u, hu⟩ := hseen
      exact hsettled.not_pending hx hmem hu (hpending u hu)

theorem sessionInv_version
    (hr : Reports (k r) (x.taken ++ taken (visible db x.own) stmt r) (x.sourced ++ sourced stmt)) :
    SessionInv (db.undo v') ps (x.executed (visible db x.own) v' stmt k r) := by
  have hvisible := visible_executed x stmt (ht.table.trans (by rw [ht.written]; rfl))
  have hfind : v'.transactions.find? t.transactionId = some t := by rw [ht.table, find?_put, if_pos rfl]
  refine ⟨fun u hu => ?_, fun id u hu => ?_, fun id hid => held_version hx ht hid, ?_, ?_, hr⟩
  · rcases mem_append.mp hu with hu | hu
    · exact (hx.fresh u hu).trans_le (Nat.le_max_left _ _)
    · rw [ht.written, mem_singleton] at hu
      subst hu
      exact (v'.fresh u (Table.find?_eq_some.mp hfind).1).trans_le (Nat.le_max_right _ _)
  · rw [Session.executed, hvisible] at hu
    exact follows_version hx ht hu
  · refine hx.nodup.append ?_ fun id hid hid' => (new_version hx ht hsettled hid').1 hid
    rcases ht.takes with h | ⟨h, -⟩ <;> rw [h] <;> simp
  · intro id hid
    rcases mem_append.mp hid with hid | hid
    · exact hx.new id hid
    · exact (new_version hx ht hsettled hid).2

end Statement

end

variable {n : Nat} {env : Env} {stmt : Stmt} {r : stmt.Res} {db v' : Db} {x y : Session} {s t : State n} {w w' : Fin n}
  {ps orders thrown : List Nat} {k : stmt.Res → Work (List Nat)} {m : Move n}
variable {o : Option Session}

theorem mem_setSession : y ∈ (s.setSession w o).session w' ↔ w' = w ∧ y ∈ o ∨ w' ≠ w ∧ y ∈ s.session w' := by
  rw [State.setSession]
  by_cases h : w' = w
  · subst h
    simp
  · simp [h]

theorem apart_setSession (h : ∀ w w', w ≠ w' → ∀ x ∈ s.session w, ∀ y ∈ s.session w', Apart x.own y.own)
    (ho : ∀ x ∈ o, ∀ w', w' ≠ w → ∀ y ∈ s.session w', Apart x.own y.own) :
    ∀ w₁ w₂, w₁ ≠ w₂ → ∀ x ∈ (s.setSession w o).session w₁, ∀ y ∈ (s.setSession w o).session w₂, Apart x.own y.own := by
  intro w₁ w₂ hne x hx y hy
  rcases mem_setSession.mp hx with ⟨rfl, hxo⟩ | ⟨hw₁, hxs⟩
  · rcases mem_setSession.mp hy with ⟨rfl, -⟩ | ⟨hw₂, hys⟩
    · exact absurd rfl hne
    · exact ho x hxo w₂ hw₂ y hys
  · rcases mem_setSession.mp hy with ⟨rfl, hyo⟩ | ⟨hw₂, hys⟩
    · exact (ho y hyo w₁ hw₁ x hxs).symm
    · exact h w₁ w₂ hne x hxs y hys

theorem Inv.start (h : Inv s) {work : Work (List Nat)} (hr : Reports work [] []) :
    Inv (s.setSession w (some ⟨work, ⟨[], []⟩, [], []⟩)) := by
  refine ⟨fun w' y hy => ?_, apart_setSession h.apart ?_, h.settled, h.ordered, { h.single with }⟩
  · rcases mem_setSession.mp hy with ⟨-, ⟨⟩⟩ | ⟨-, hy⟩
    · exact .start hr
    · exact h.sessions w' y hy
  · rintro _ ⟨⟩ _ _ _ _ t ht
    cases ht

theorem Inv.finish (h : Inv s) : Inv (s.finish w []) := by
  refine ⟨fun w' y hy => ?_, apart_setSession h.apart (by simp), h.settled, ?_,
    { h.single with orders := ?_ }⟩
  · rcases mem_setSession.mp hy with ⟨-, hy⟩ | ⟨-, hy⟩
    · cases hy
    · exact h.sessions w' y hy
  · rw [State.finish, append_nil]
    exact h.ordered
  · rw [State.finish, append_nil]
    exact h.single.orders

theorem apart_executed (hy : SessionInv db ps y) (hxy : Apart x.own y.own) (hwait : ¬ waitsFor db y.own stmt)
    (heffect : Untouched (visible db x.own) v' stmt r ∨ ∃ t, Version (visible db x.own) v' stmt r t) :
    Apart (x.executed (visible db x.own) v' stmt k r).own y.own := by
  intro t ht u hu
  rcases mem_append.mp ht with ht | ht
  · exact hxy t ht u hu
  · rcases heffect with ⟨hwritten, -⟩ | ⟨t', hver⟩
    · rw [hwritten] at ht
      cases ht
    · rw [hver.written, mem_singleton] at ht
      subst ht
      rcases hver.locks with ⟨hseen, hlocks⟩ | ⟨-, hid⟩
      · obtain ⟨o, ho⟩ := isSome_iff_exists.mp hseen
        rw [find?_visible, or_eq_some_iff] at ho
        intro he
        rcases ho with ho | ⟨-, ho⟩
        · obtain ⟨hmem, hid⟩ := mem_of_latest ho
          exact hxy o hmem u hu (hid.trans he)
        · obtain ⟨hmem, hid⟩ := Table.find?_eq_some.mp ho
          exact hwait (hlocks db y.own (hid ▸ mem_map_of_mem hmem) (he ▸ mem_map_of_mem hu))
      · have hle : db.nextId ≤ (visible db x.own).nextId := (le_foldl_max _ _).1
        have hlt := hy.fresh u hu
        omega

theorem Inv.executed (h : Inv s) (hx : x ∈ s.session w) (hwork : x.work = .exec stmt thrown k)
    (hwait : ¬ s.Waits w stmt) (hexec : exec env stmt (visible s.db x.own) = some (r, v'))
    (hcur : Current (visible s.db x.own) stmt) : Inv (s.executed w x stmt k r v') := by
  have heffect := exec_effect hexec hcur
  have hinv := h.sessions w x hx
  have hr : Reports (k r) (x.taken ++ taken (visible s.db x.own) stmt r) (x.sourced ++ sourced stmt) := by
    have hreports := hinv.reports
    rw [hwork] at hreports
    exact hreports _ r
  refine ⟨fun w' y hy => ?_, apart_setSession h.apart ?_, h.settled, h.ordered, { h.single with }⟩
  · rcases mem_setSession.mp hy with ⟨-, ⟨⟩⟩ | ⟨-, hy⟩
    · rcases heffect with hu | ⟨t, ht⟩
      · exact sessionInv_untouched hinv hr hu
      · exact sessionInv_version hinv ht h.settled hr
    · exact (h.sessions w' y hy).congr rfl (Nat.le_max_left _ _)
  · rintro _ ⟨⟩ w' hw' y hy
    exact apart_executed (h.sessions w' y hy) (h.apart w w' (Ne.symm hw') x hx y hy)
      (fun hwaits => hwait ⟨w', hw', y, hy, hwaits⟩) heffect

theorem SessionInv.commit (hx : SessionInv db ps x) (hy : SessionInv db ps y) (hxy : Apart x.own y.own) :
    SessionInv (visible db x.own) (ps ++ x.taken) y := by
  refine { hy with fresh := fun t ht => ?_, follows := fun id t ht => ?_, new := fun id hid => ?_ }
  · exact (hy.fresh t ht).trans_le (le_foldl_max _ _).1
  · rw [find?_visible, or_eq_some_iff] at ht
    rcases ht with ht | ⟨-, ht⟩
    · rw [find?_visible, hxy.symm.latest_eq_none ht, none_or]
      exact hy.follows id t (by rw [find?_visible, ht]; rfl)
    · rw [ht]
      exact .refl t
  · rw [mem_append, not_or]
    refine ⟨hy.new id hid, fun hid' => ?_⟩
    obtain ⟨t, ht, -⟩ := hx.held id hid'
    obtain ⟨u, hu, -⟩ := hy.held id hid
    rw [hxy.latest_eq_none ht] at hu
    cases hu

theorem Settled.commit (h : Settled db ps) (hx : SessionInv db ps x) : Settled (visible db x.own) (ps ++ x.taken) := by
  intro id hid
  rcases mem_append.mp hid with hid | hid
  · obtain ⟨t, ht, -⟩ := h id hid
    have hseen : ((visible db x.own).transactions.find? id).isSome := by
      rw [find?_visible, ht]
      cases latest TransactionRow.transactionId x.own.transactions id <;> rfl
    obtain ⟨u, hu⟩ := isSome_iff_exists.mp hseen
    exact ⟨u, hu, h.not_pending hx hid hu⟩
  · exact hx.held_visible hid

theorem Inv.commit (h : Inv s) (hx : x ∈ s.session w) (hwork : x.work = .commit orders thrown) :
    Inv (s.commit w x orders) := by
  have hinv := h.sessions w x hx
  have hr := hinv.reports
  rw [hwork] at hr
  obtain ⟨horders, hsourced⟩ := hr
  have hpast : (s.commit w x orders).past = s.past ++ x.taken := by simp [State.past, State.commit]
  have hnew : s.past.Disjoint x.taken := fun id hid hid' => hinv.new id hid' hid
  refine ⟨fun w' y hy => ?_, apart_setSession h.apart (by simp), ?_, ?_, ⟨?_, ?_, ?_, ?_⟩⟩
  · rw [hpast]
    rcases mem_setSession.mp hy with ⟨-, hy⟩ | ⟨hne, hy⟩
    · cases hy
    · exact hinv.commit (h.sessions w' y hy) (h.apart w w' (Ne.symm hne) x hx y hy)
  · rw [hpast]
    exact h.settled.commit hinv
  · rw [hpast]
    exact append_subset.mpr ⟨fun id hid => mem_append_left _ (h.ordered hid),
      fun id hid => mem_append_right _ (horders.subset hid)⟩
  · change (s.commit w x orders).past.Nodup
    rw [hpast]
    exact h.single.once.append hinv.nodup hnew
  · intro c hc
    rcases mem_append.mp hc with hc | hc
    · exact h.single.source c hc
    · rw [mem_singleton.mp hc]
      exact fun id hid => hsourced hid
  · intro c hc
    rcases mem_append.mp hc with hc | hc
    · exact h.single.follows c hc
    · rw [mem_singleton.mp hc]
      exact fun t ht => hinv.follows _ t (Table.find?_eq_some.mpr ⟨ht, rfl⟩)
  · exact h.single.orders.append (horders.nodup hinv.nodup) fun id hid hid' => hnew (h.ordered hid) (horders.subset hid')

theorem inv_next (h : Inv s) (hjobs : ∀ job : Job, Reports job.work [] []) (hm : m.Meets s) (hn : s.next m = some t) :
    Inv t := by
  cases m with
  | start w job =>
    simp only [State.next] at hn
    split at hn
    · cases hn
      exact h.start (hjobs job)
    · cases hn
  | advance w env =>
    obtain ⟨x, hx, hn⟩ := bind_eq_some_iff.mp hn
    have hmeets := hm x hx
    split at hn
    · next orders hwork =>
      have hr := (h.sessions w x hx).reports
      rw [hwork] at hr
      cases hn
      rw [show orders = [] from hr]
      exact h.finish
    · next orders thrown hwork =>
      cases hn
      exact h.commit hx hwork
    · next stmt thrown k hwork =>
      rw [hwork] at hmeets
      split at hn
      · cases hn
      · next hwait =>
        obtain ⟨⟨r, v'⟩, hexec, he⟩ := map_eq_some_iff.mp hn
        cases he
        exact h.executed hx hwork hwait hexec hmeets
  | fail w =>
    obtain ⟨x, hx, hn⟩ := bind_eq_some_iff.mp hn
    have hmeets := hm x hx
    split at hn
    · cases hn
    · next orders thrown hwork =>
      rw [hwork] at hmeets
      cases hn
      rw [show thrown = [] from hmeets]
      exact h.finish
    · next stmt thrown k hwork =>
      rw [hwork] at hmeets
      cases hn
      rw [show thrown = [] from hmeets]
      exact h.finish

theorem inv_init (h : Init s) : Inv s := by
  have hpast : s.past = [] := by rw [State.past, h.commits, flatMap_nil]
  refine ⟨?_, ?_, ?_, ?_, ?_, ?_, ?_, ?_⟩
  · simp [h.idle]
  · simp [h.idle]
  · simp [Settled, hpast]
  · simp [h.orders]
  · simp [h.commits]
  · simp [h.commits]
  · simp [h.commits]
  · simp [h.orders]

theorem inv_run (hjobs : ∀ job : Job, Reports job.work [] []) {moves : List (Move n)} (h : Inv s)
    (hm : MeetsAlong s moves) (hr : s.run moves = some t) : Inv t := by
  induction moves generalizing s with
  | nil =>
    cases hr
    exact h
  | cons m rest ih =>
    obtain ⟨u, hu, hr⟩ := bind_eq_some_iff.mp hr
    exact ih (inv_next h hjobs hm.1 hu) (hm.2 u hu) hr

end Logistics.Sessions
