import Logistics.Reachability
import Logistics.SessionManager

namespace Logistics.SessionManager

variable {m : Sessions} {s u v : String} {info : SessionInfo}

inductive Op
  | create
  | udp (endpoint : Address)
  | mark (sessionId clientType username : String)
  | blacklist (sessionId : String)
  | remove (sessionId : String)

def Op.apply (m : Sessions) : Op → Sessions
  | .create => (createSession m).2
  | .udp endpoint => (getOrCreateUdpSession m endpoint).2
  | .mark sessionId clientType username => markAuthenticated m sessionId clientType username
  | .blacklist sessionId => blacklistSession m sessionId
  | .remove sessionId => removeSession m sessionId

def run (ops : List Op) : Sessions := ops.foldl Op.apply start

theorem Sound.apply (hs : Sound m) (op : Op) : Sound (op.apply m) := by
  cases op with
  | create => exact hs.create
  | udp endpoint => exact hs.udp endpoint
  | mark s clientType u => exact hs.mark s clientType u
  | blacklist s => exact hs.blacklist s
  | remove s => exact hs.remove s

def Eligible (u : String) (info : SessionInfo) : Prop :=
  info.isAuthenticated = true ∧ info.isBlacklisted = false ∧ info.username = u

instance (u : String) : DecidablePred (Eligible u) := fun _ => inferInstanceAs (Decidable (_ ∧ _))

/-- The lookup by username finds a session exactly when there is one to find, and
then such a session. -/
structure Consistent (m : Sessions) : Prop where
  found : ∀ u, (findSessionByUsername m u).isSome ↔ ∃ s info, m.sessions.find? s = some info ∧ Eligible u info
  right : ∀ u s, findSessionByUsername m u = some s → ∃ info, m.sessions.find? s = some info ∧ Eligible u info

theorem Sound.findSessionByUsername_eq_some (hs : Sound m) : findSessionByUsername m u = some s ↔ ∃ entry info,
    m.usernameToSession.find? u = some entry ∧ entry.2 = s ∧ m.sessions.find? s = some info ∧ Eligible u info := by
  rw [findSessionByUsername]
  cases he : m.usernameToSession.find? u with
  | none => simp
  | some entry =>
    obtain ⟨-, info, hinfo, hname, hauth⟩ := hs.points u entry he
    simp only [hinfo, hauth, true_and]
    by_cases hb : info.isBlacklisted = false
    · rw [if_pos hb]
      constructor
      · rintro ⟨⟩
        exact ⟨entry, info, rfl, rfl, hinfo, hauth, hb, hname⟩
      · rintro ⟨entry', info', he', rfl, -⟩
        cases he'
        rfl
    · rw [if_neg hb]
      refine iff_of_false (by rintro ⟨⟩) ?_
      rintro ⟨entry', info', he', rfl, hinfo', helig⟩
      cases he'
      cases hinfo.symm.trans hinfo'
      exact hb helig.2.1

theorem Sound.isSome_findSessionByUsername (hs : Sound m) : (findSessionByUsername m u).isSome ↔ ∃ entry info,
    m.usernameToSession.find? u = some entry ∧ m.sessions.find? entry.2 = some info ∧ Eligible u info := by
  rw [Option.isSome_iff_exists]
  simp only [hs.findSessionByUsername_eq_some]
  constructor
  · rintro ⟨_, entry, info, he, rfl, hrest⟩
    exact ⟨entry, info, he, hrest⟩
  · rintro ⟨entry, info, he, hrest⟩
    exact ⟨entry.2, entry, info, he, rfl, hrest⟩

theorem Sound.consistent_iff (hs : Sound m) : Consistent m ↔
    ∀ u s info, m.sessions.find? s = some info → Eligible u info → ∃ entry found,
      m.usernameToSession.find? u = some entry ∧ m.sessions.find? entry.2 = some found ∧ Eligible u found := by
  simp only [← hs.isSome_findSessionByUsername]
  constructor
  · intro h u s info hinfo helig
    exact (h.found u).mpr ⟨s, info, hinfo, helig⟩
  · intro h
    have hright (u s : String) (hf : findSessionByUsername m u = some s) :
        ∃ info, m.sessions.find? s = some info ∧ Eligible u info := by
      obtain ⟨-, info, -, -, hrest⟩ := hs.findSessionByUsername_eq_some.mp hf
      exact ⟨info, hrest⟩
    refine ⟨fun u => ⟨fun hf => ?_, ?_⟩, hright⟩
    · obtain ⟨s, hf⟩ := Option.isSome_iff_exists.mp hf
      exact ⟨s, hright u s hf⟩
    · rintro ⟨s, info, hinfo, helig⟩
      exact h u s info hinfo helig

def Alone (m : Sessions) (s u : String) : Prop :=
  ∀ s' info, s' ≠ s → m.sessions.find? s' = some info → ¬ Eligible u info

/-- The condition under which the operation keeps the index consistent. -/
def Op.Keeps (m : Sessions) : Op → Prop
  | .create | .udp _ => True
  | .mark s _ u => ∀ info, m.sessions.find? s = some info → (u ≠ info.username → Alone m s info.username) ∧
      (if info.isBlacklisted then Alone m s u else u ≠ "")
  | .blacklist s | .remove s => ∀ info, m.sessions.find? s = some info → Alone m s info.username

theorem Sound.consistent_drop {m' : Sessions} (hs : Sound m) (hm : Consistent m) (h : Drops m m' s info) :
    Consistent m' ↔ Alone m s info.username := by
  have hs' := hs.drop h
  rw [hs'.consistent_iff]
  constructor
  · intro hall s' info' hne hinfo' helig
    obtain ⟨entry, -, he, -⟩ := hall _ s' info' (by rwa [h.others s' hne]) helig
    rw [h.index, if_pos rfl] at he
    cases he
  · intro halone v s' info' hinfo' helig
    have hne : s' ≠ s := by
      rintro rfl
      exact absurd ((h.gone info' hinfo').symm.trans helig.2.1) (by decide)
    rw [h.others s' hne] at hinfo'
    obtain ⟨entry, found, he, hfound, hfelig⟩ := hs.consistent_iff.mp hm _ _ _ hinfo' helig
    have hv : v ≠ info.username := by
      rintro rfl
      exact halone s' info' hne hinfo' helig
    refine ⟨entry, found, ?_, ?_, hfelig⟩
    · rw [h.index, if_neg hv, he]
    · rw [h.others _ (hs.points_ne h.found he hv), hfound]

theorem Sound.consistent_of_lookups {m' : Sessions} (hs : Sound m) (hs' : Sound m') (hm : Consistent m)
    (hindex : m'.usernameToSession = m.usernameToSession)
    (hback : ∀ v s' info', m'.sessions.find? s' = some info' → Eligible v info' →
      ∃ info, m.sessions.find? s' = some info ∧ Eligible v info)
    (hforth : ∀ v s' info, m.sessions.find? s' = some info → Eligible v info →
      ∃ info', m'.sessions.find? s' = some info' ∧ Eligible v info') : Consistent m' := by
  rw [hs'.consistent_iff]
  intro v s' info' hinfo' helig
  obtain ⟨info, hinfo, helig⟩ := hback v s' info' hinfo' helig
  obtain ⟨entry, found, he, hfound, hfelig⟩ := hs.consistent_iff.mp hm _ _ _ hinfo helig
  obtain ⟨found', hfound', hfelig'⟩ := hforth v _ found hfound hfelig
  exact ⟨entry, found', by rw [hindex, he], hfound', hfelig'⟩

theorem Sound.consistent_create (hs : Sound m) (hm : Consistent m) : Consistent (createSession m).2 := by
  refine hs.consistent_of_lookups hs.create hm rfl (fun v s' info' h helig => ?_) fun v s' info h helig => ?_
  · rw [find?_createSession] at h
    split at h
    · cases h
      cases helig.1
    · exact ⟨info', h, helig⟩
  · refine ⟨info, ?_, helig⟩
    rw [find?_createSession, if_neg, h]
    rintro rfl
    rw [hs.fresh _ (Nat.lt_succ_self _)] at h
    cases h

theorem Sound.consistent_udp (hs : Sound m) (hm : Consistent m) (endpoint : Address) :
    Consistent (getOrCreateUdpSession m endpoint).2 := by
  refine hs.consistent_of_lookups (hs.udp endpoint) hm rfl (fun v s' info' h helig => ?_) fun v s' info h helig => ?_
  · rw [find?_getOrCreateUdpSession] at h
    split at h
    · cases hold : m.sessions.find? s' with
      | none =>
        rw [hold] at h
        cases h
        cases helig.1
      | some info =>
        rw [hold] at h
        cases h
        exact ⟨info, rfl, helig⟩
    · exact ⟨info', h, helig⟩
  · rw [find?_getOrCreateUdpSession, h]
    split
    · exact ⟨_, rfl, helig⟩
    · exact ⟨info, rfl, helig⟩

theorem Sound.finds_marked (hs : Sound m) (h : m.sessions.find? s = some info) (hb : info.isBlacklisted = false)
    (clientType : String) (hu : u ≠ "") : ∃ entry found,
      (markAuthenticated m s clientType u).usernameToSession.find? u = some entry ∧
        (markAuthenticated m s clientType u).sessions.find? entry.2 = some found ∧ Eligible u found := by
  refine ⟨(u, s), _, ?_, find?_markAuthenticated_self h clientType u, rfl, hb, rfl⟩
  rw [hs.index_markAuthenticated h, if_pos rfl, if_neg hu]

variable {clientType : String}

theorem Sound.index_of_consistent_mark (hs : Sound m) (h : m.sessions.find? s = some info)
    (hm : Consistent (markAuthenticated m s clientType u)) {s' : String} {info' : SessionInfo} (hne : s' ≠ s)
    (hinfo' : m.sessions.find? s' = some info') (helig : Eligible v info') :
    ∃ entry found, (if v = u then (if u = "" then none else some (u, s))
      else if v = info.username then none else m.usernameToSession.find? v) = some entry ∧
      (markAuthenticated m s clientType u).sessions.find? entry.2 = some found ∧ Eligible v found := by
  have hs' := hs.mark s clientType u
  have hinfo : (markAuthenticated m s clientType u).sessions.find? s' = some info' := by
    rwa [find?_markAuthenticated_of_ne hne]
  obtain ⟨entry, found, he, hrest⟩ := hs'.consistent_iff.mp hm _ _ _ hinfo helig
  rw [hs.index_markAuthenticated h] at he
  exact ⟨entry, found, he, hrest⟩

theorem Sound.alone_of_consistent_mark (hs : Sound m) (h : m.sessions.find? s = some info)
    (hm : Consistent (markAuthenticated m s clientType u)) :
    (u ≠ info.username → Alone m s info.username) ∧ (if info.isBlacklisted then Alone m s u else u ≠ "") := by
  have hs' := hs.mark s clientType u
  have hself := find?_markAuthenticated_self h clientType u
  refine ⟨fun hu s' info' hne hinfo' helig => ?_, ?_⟩
  · obtain ⟨entry, -, he, -⟩ := hs.index_of_consistent_mark h hm hne hinfo' helig
    rw [if_neg (Ne.symm hu), if_pos rfl] at he
    cases he
  · split
    · next hb =>
      intro s' info' hne hinfo' helig
      obtain ⟨entry, found, he, hfound, hfelig⟩ := hs.index_of_consistent_mark h hm hne hinfo' helig
      rw [if_pos rfl] at he
      split at he
      · cases he
      · cases he
        cases hself.symm.trans hfound
        exact absurd (hb.symm.trans hfelig.2.1) (by decide)
    · next hb =>
      rintro rfl
      obtain ⟨entry, -, he, -⟩ := hs'.consistent_iff.mp hm _ _ _ hself ⟨rfl, by simpa using hb, rfl⟩
      exact (hs'.points "" entry he).1 rfl

theorem Sound.consistent_mark_of_alone (hs : Sound m) (hm : Consistent m) (h : m.sessions.find? s = some info)
    (clientType : String) (hold : u ≠ info.username → Alone m s info.username)
    (hnew : if info.isBlacklisted then Alone m s u else u ≠ "") : Consistent (markAuthenticated m s clientType u) := by
  have hs' := hs.mark s clientType u
  rw [hs'.consistent_iff]
  intro v s' info' hinfo' helig
  by_cases hne : s' = s
  · rw [hne, find?_markAuthenticated_self h] at hinfo'
    cases hinfo'
    obtain ⟨-, hb, rfl⟩ := helig
    rw [if_neg (by simpa using hb)] at hnew
    exact hs.finds_marked h hb clientType hnew
  · rw [find?_markAuthenticated_of_ne hne] at hinfo'
    by_cases hvu : v = u
    · subst hvu
      cases hb : info.isBlacklisted with
      | true =>
        rw [hb] at hnew
        exact absurd helig (hnew s' info' hne hinfo')
      | false =>
        rw [hb] at hnew
        exact hs.finds_marked h hb clientType hnew
    · have hv : v ≠ info.username := by
        rintro rfl
        exact hold (Ne.symm hvu) s' info' hne hinfo' helig
      obtain ⟨entry, found, he, hfound, hfelig⟩ := hs.consistent_iff.mp hm _ _ _ hinfo' helig
      refine ⟨entry, found, ?_, ?_, hfelig⟩
      · rw [hs.index_markAuthenticated h, if_neg hvu, if_neg hv, he]
      · rw [find?_markAuthenticated_of_ne (hs.points_ne h he hv), hfound]

theorem Sound.consistent_mark (hs : Sound m) (hm : Consistent m) (h : m.sessions.find? s = some info)
    (clientType u : String) : Consistent (markAuthenticated m s clientType u) ↔
      (u ≠ info.username → Alone m s info.username) ∧ (if info.isBlacklisted then Alone m s u else u ≠ "") :=
  ⟨hs.alone_of_consistent_mark h, fun hcond => hs.consistent_mark_of_alone hm h clientType hcond.1 hcond.2⟩

theorem Sound.consistent_apply (hs : Sound m) (hm : Consistent m) (op : Op) : Consistent (op.apply m) ↔ op.Keeps m := by
  cases op with
  | create => exact iff_of_true (hs.consistent_create hm) trivial
  | udp endpoint => exact iff_of_true (hs.consistent_udp hm endpoint) trivial
  | mark s clientType u =>
    cases h : m.sessions.find? s with
    | none =>
      rw [Op.apply, markAuthenticated, h]
      exact iff_of_true hm fun info hinfo => by cases h.symm.trans hinfo
    | some info => simp [Op.apply, Op.Keeps, hs.consistent_mark hm h, h]
  | blacklist s =>
    cases h : m.sessions.find? s with
    | none =>
      rw [Op.apply, blacklistSession, h]
      exact iff_of_true hm fun info hinfo => by cases h.symm.trans hinfo
    | some info => simp [Op.apply, Op.Keeps, hs.consistent_drop hm (hs.drops_blacklistSession h), h]
  | remove s =>
    cases h : m.sessions.find? s with
    | none =>
      rw [Op.apply, removeSession, h]
      exact iff_of_true hm fun info hinfo => by cases h.symm.trans hinfo
    | some info => simp [Op.apply, Op.Keeps, hs.consistent_drop hm (hs.drops_removeSession h), h]

theorem consistent_start : Consistent start := ⟨fun _ => iff_of_false nofun nofun, nofun⟩

/-- In every state of a run, exactly when every operation of it meets its
condition. -/
theorem username_index_consistent_iff (ops : List Op) : (∀ before, before <+: ops → Consistent (run before)) ↔
      ∀ before op, before ++ [op] <+: ops → op.Keeps (run before) :=
  Reachability.prefix_iff sound_start (fun _ op hs => hs.apply op) consistent_start
    (fun _ op hs hm => hs.consistent_apply hm op) ops

def secondLoginLeaves : List Op :=
  [.create, .create, .mark "tcp_session_1" "GATEWAY" "api_gateway", .mark "tcp_session_2" "GATEWAY" "api_gateway",
    .remove "tcp_session_2"]

theorem first_login_not_found : ¬ Consistent (run secondLoginLeaves) := by
  intro h
  have hfound : (findSessionByUsername (run secondLoginLeaves) "api_gateway").isSome :=
    (h.found "api_gateway").mpr ⟨"tcp_session_1", ⟨"tcp_session_1", true, false, "GATEWAY", "api_gateway", .tcp, none⟩,
      by decide, by decide⟩
  revert hfound
  decide

end Logistics.SessionManager
