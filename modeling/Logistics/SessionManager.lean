import Logistics.DecimalText
import Logistics.Ipc
import Logistics.RowVersions

namespace Logistics.SessionManager

open KeyedTable Ipc

section

structure Address where
  ip : String
  port : Nat
  deriving DecidableEq, Repr

structure SessionInfo where
  sessionId : String
  isAuthenticated : Bool
  isBlacklisted : Bool
  clientType : String
  username : String
  type : ProtocolType
  udpEndpoint : Option Address
  deriving DecidableEq, Repr

/-- The index maps a username to a session. The 64-bit counter is a natural
number. -/
structure Sessions where
  sessions : Table SessionInfo.sessionId
  usernameToSession : Table (Prod.fst : String × String → String)
  sessionCounter : Nat

def start : Sessions := ⟨.empty, .empty, 0⟩

/-- Session ids have at most 55 characters, so that the 64 bytes of a slot hold
each of them. -/
def tcpSessionId (n : Nat) : String := "tcp_session_" ++ toString n

def makeUdpSessionId (endpoint : Address) : String := "udp_" ++ endpoint.ip ++ "_" ++ toString endpoint.port

variable (m : Sessions)

def createSession : String × Sessions :=
  let n := m.sessionCounter + 1
  (tcpSessionId n, { m with
    sessions := m.sessions.put ⟨tcpSessionId n, false, false, "", "", .tcp, none⟩
    sessionCounter := n })

def getOrCreateUdpSession (endpoint : Address) : String × Sessions :=
  let sessionId := makeUdpSessionId endpoint
  (sessionId, { m with
    sessions :=
      match m.sessions.find? sessionId with
      | some _ => m.sessions.update sessionId (fun info => { info with udpEndpoint := some endpoint }) fun _ => rfl
      | none => m.sessions.put ⟨sessionId, false, false, "", "", .udp, some endpoint⟩ })

def eraseUsername (username : String) : Table (Prod.fst : String × String → String) :=
  if username = "" then m.usernameToSession else m.usernameToSession.erase username

def markAuthenticated (sessionId clientType username : String) : Sessions :=
  match m.sessions.find? sessionId with
  | none => m
  | some info => { m with
      sessions := m.sessions.update sessionId (fun info => { info with
        isAuthenticated := true, clientType := clientType, username := username }) fun _ => rfl
      usernameToSession :=
        if username = "" then eraseUsername m info.username
        else (eraseUsername m info.username).put (username, sessionId) }

def blacklistSession (sessionId : String) : Sessions :=
  match m.sessions.find? sessionId with
  | none => m
  | some info => { m with
      sessions := m.sessions.update sessionId (fun info => { info with isBlacklisted := true }) fun _ => rfl
      usernameToSession := eraseUsername m info.username }

def removeSession (sessionId : String) : Sessions :=
  match m.sessions.find? sessionId with
  | none => m
  | some info => { m with
      sessions := m.sessions.erase sessionId
      usernameToSession := eraseUsername m info.username }

def getSessionInfo (sessionId : String) : Option SessionInfo := m.sessions.find? sessionId

def hasSession (sessionId : String) : Bool := (m.sessions.find? sessionId).isSome

def isAuthenticated (sessionId : String) : Bool :=
  ((m.sessions.find? sessionId).map SessionInfo.isAuthenticated).getD false

def isBlacklisted (sessionId : String) : Bool := ((m.sessions.find? sessionId).map SessionInfo.isBlacklisted).getD false

def getClientType (sessionId : String) : String := ((m.sessions.find? sessionId).map SessionInfo.clientType).getD ""

def findSessionByUsername (username : String) : Option String :=
  match m.usernameToSession.find? username with
  | none => none
  | some entry =>
    match m.sessions.find? entry.2 with
    | none => none
    | some info => if info.isAuthenticated ∧ info.isBlacklisted = false then some entry.2 else none

def getAuthenticatedSessions : List String :=
  (m.sessions.rows.filter fun info => info.isAuthenticated ∧ info.isBlacklisted = false).map SessionInfo.sessionId

end

open RowVersions DecimalText

variable {m : Sessions} {s u v : String} {info : SessionInfo}

/-- Every entry of the index names an authenticated session with that username,
and no session has an id that is still to be given out. -/
structure Sound (m : Sessions) : Prop where
  points : ∀ u entry, m.usernameToSession.find? u = some entry →
    u ≠ "" ∧ ∃ info, m.sessions.find? entry.2 = some info ∧ info.username = u ∧ info.isAuthenticated = true
  fresh : ∀ n, m.sessionCounter < n → m.sessions.find? (tcpSessionId n) = none

theorem tcpSessionId_injective {a b : Nat} (h : tcpSessionId a = tcpSessionId b) : a = b := by
  have htext := congrArg String.toList h
  simp only [tcpSessionId, String.toList_append, List.append_cancel_left_eq] at htext
  exact toString_injective (String.toList_injective htext)

theorem makeUdpSessionId_ne_tcpSessionId (endpoint : Address) (n : Nat) :
    makeUdpSessionId endpoint ≠ tcpSessionId n := by
  intro h
  have htext := congrArg (fun t => t.toList.head?) h
  simp [makeUdpSessionId, tcpSessionId, String.toList_append] at htext

theorem sound_start : Sound start := ⟨nofun, fun _ _ => rfl⟩

theorem Sound.find?_eraseUsername (hs : Sound m) (u v : String) :
    (eraseUsername m u).find? v = if v = u then none else m.usernameToSession.find? v := by
  rw [eraseUsername]
  by_cases hu : u = ""
  · rw [if_pos hu]
    split
    · next hv =>
      cases he : m.usernameToSession.find? v with
      | none => rfl
      | some entry => exact absurd (hv.trans hu) (hs.points v entry he).1
    · rfl
  · rw [if_neg hu, Table.find?_erase]

theorem find?_createSession (m : Sessions) (s : String) : (createSession m).2.sessions.find? s =
    if s = tcpSessionId (m.sessionCounter + 1) then
      some ⟨tcpSessionId (m.sessionCounter + 1), false, false, "", "", .tcp, none⟩ else m.sessions.find? s :=
  find?_put _ _ _

theorem find?_getOrCreateUdpSession (m : Sessions) (endpoint : Address) (s : String) :
    (getOrCreateUdpSession m endpoint).2.sessions.find? s =
      if s = makeUdpSessionId endpoint then
        some (((m.sessions.find? s).map fun info => { info with udpEndpoint := some endpoint }).getD
          ⟨makeUdpSessionId endpoint, false, false, "", "", .udp, some endpoint⟩)
      else m.sessions.find? s := by
  simp only [getOrCreateUdpSession]
  cases h : m.sessions.find? (makeUdpSessionId endpoint) with
  | some info =>
    rw [Table.find?_update]
    split
    · next he => rw [he, h]; rfl
    · rfl
  | none =>
    rw [find?_put]
    split
    · next he => rw [he, h]; rfl
    · rfl

theorem find?_markAuthenticated (m : Sessions) (s clientType u v : String) :
    (markAuthenticated m s clientType u).sessions.find? v =
      if v = s then (m.sessions.find? v).map fun info =>
        { info with isAuthenticated := true, clientType := clientType, username := u }
      else m.sessions.find? v := by
  rw [markAuthenticated]
  cases h : m.sessions.find? s with
  | some info => rw [Table.find?_update]
  | none =>
    by_cases he : v = s
    · rw [if_pos he, he, h]
      rfl
    · exact (if_neg he).symm

theorem find?_markAuthenticated_self (h : m.sessions.find? s = some info) (clientType u : String) :
    (markAuthenticated m s clientType u).sessions.find? s =
      some { info with isAuthenticated := true, clientType := clientType, username := u } := by
  rw [find?_markAuthenticated, if_pos rfl, h]
  rfl

theorem find?_markAuthenticated_of_ne (hv : v ≠ s) (clientType u : String) :
    (markAuthenticated m s clientType u).sessions.find? v = m.sessions.find? v := by
  rw [find?_markAuthenticated, if_neg hv]

theorem find?_blacklistSession (m : Sessions) (s v : String) : (blacklistSession m s).sessions.find? v =
    if v = s then (m.sessions.find? v).map fun info => { info with isBlacklisted := true }
    else m.sessions.find? v := by
  rw [blacklistSession]
  cases h : m.sessions.find? s with
  | some info => rw [Table.find?_update]
  | none =>
    by_cases he : v = s
    · rw [if_pos he, he, h]
      rfl
    · exact (if_neg he).symm

theorem find?_removeSession (m : Sessions) (s v : String) :
    (removeSession m s).sessions.find? v = if v = s then none else m.sessions.find? v := by
  rw [removeSession]
  cases h : m.sessions.find? s with
  | some info => exact Table.find?_erase _ _ _
  | none =>
    by_cases he : v = s
    · rw [if_pos he, he]
      exact h
    · exact (if_neg he).symm

theorem Sound.index_markAuthenticated (hs : Sound m) (h : m.sessions.find? s = some info) (clientType u v : String) :
    (markAuthenticated m s clientType u).usernameToSession.find? v =
      if v = u then (if u = "" then none else some (u, s))
      else if v = info.username then none else m.usernameToSession.find? v := by
  rw [markAuthenticated, h]
  by_cases hu : u = ""
  · simp only [hu, if_true, hs.find?_eraseUsername]
    by_cases hv : v = ""
    · rw [if_pos hv]
      split
      · rfl
      · cases he : m.usernameToSession.find? v with
        | none => rfl
        | some entry => exact absurd hv (hs.points v entry he).1
    · rw [if_neg hv]
  · simp only [hu, if_false, find?_put, hs.find?_eraseUsername]

theorem Sound.points_ne (hs : Sound m) (h : m.sessions.find? s = some info) {entry : String × String}
    (he : m.usernameToSession.find? v = some entry) (hv : v ≠ info.username) : entry.2 ≠ s := by
  rintro rfl
  obtain ⟨-, info', hinfo', hname, -⟩ := hs.points v entry he
  cases h.symm.trans hinfo'
  exact hv hname.symm

theorem Sound.create (hs : Sound m) : Sound (createSession m).2 := by
  constructor
  · intro u entry he
    obtain ⟨hne, info, hinfo, hrest⟩ := hs.points u entry he
    refine ⟨hne, info, ?_, hrest⟩
    rw [find?_createSession, if_neg, hinfo]
    intro hid
    rw [hid, hs.fresh _ (Nat.lt_succ_self _)] at hinfo
    cases hinfo
  · intro n hn
    have hlt : m.sessionCounter + 1 < n := hn
    rw [find?_createSession, if_neg]
    · exact hs.fresh n (by omega)
    · intro hid
      exact absurd (tcpSessionId_injective hid) (by omega)

theorem Sound.udp (hs : Sound m) (endpoint : Address) : Sound (getOrCreateUdpSession m endpoint).2 := by
  constructor
  · intro u entry he
    obtain ⟨hne, info, hinfo, hname, hauth⟩ := hs.points u entry he
    refine ⟨hne, ?_⟩
    rw [find?_getOrCreateUdpSession]
    split
    · rw [hinfo]
      exact ⟨_, rfl, hname, hauth⟩
    · exact ⟨info, hinfo, hname, hauth⟩
  · intro n hn
    rw [find?_getOrCreateUdpSession]
    exact hs.fresh n hn

theorem Sound.mark (hs : Sound m) (s clientType u : String) : Sound (markAuthenticated m s clientType u) := by
  cases h : m.sessions.find? s with
  | none =>
    rw [markAuthenticated, h]
    exact hs
  | some info =>
    constructor
    · intro v entry he
      rw [hs.index_markAuthenticated h] at he
      split at he
      · next hv =>
        split at he
        · cases he
        · next hu =>
          cases he
          refine ⟨hv ▸ hu, { info with isAuthenticated := true, clientType := clientType, username := u }, ?_,
            hv.symm, rfl⟩
          exact find?_markAuthenticated_self h clientType u
      · split at he
        · cases he
        · next hv =>
          obtain ⟨hne, info', hinfo', hrest⟩ := hs.points v entry he
          refine ⟨hne, info', ?_, hrest⟩
          rw [find?_markAuthenticated_of_ne (hs.points_ne h he hv), hinfo']
    · intro n hn
      have hfresh := hs.fresh n (by rw [markAuthenticated, h] at hn; exact hn)
      rw [find?_markAuthenticated, hfresh]
      split <;> rfl

structure Drops (m m' : Sessions) (s : String) (info : SessionInfo) : Prop where
  found : m.sessions.find? s = some info
  index : ∀ v, m'.usernameToSession.find? v = if v = info.username then none else m.usernameToSession.find? v
  others : ∀ v, v ≠ s → m'.sessions.find? v = m.sessions.find? v
  gone : ∀ info', m'.sessions.find? s = some info' → info'.isBlacklisted = true
  counter : m'.sessionCounter = m.sessionCounter

theorem Sound.drop {m' : Sessions} (hs : Sound m) (h : Drops m m' s info) : Sound m' := by
  constructor
  · intro v entry he
    rw [h.index] at he
    split at he
    · cases he
    · next hv =>
      obtain ⟨hne, info', hinfo', hrest⟩ := hs.points v entry he
      refine ⟨hne, info', ?_, hrest⟩
      rw [h.others _ (hs.points_ne h.found he hv), hinfo']
  · intro n hn
    have hfresh := hs.fresh n (h.counter ▸ hn)
    rw [h.others, hfresh]
    rintro rfl
    cases h.found.symm.trans hfresh

theorem Sound.drops_blacklistSession (hs : Sound m) (h : m.sessions.find? s = some info) :
    Drops m (blacklistSession m s) s info := by
  refine ⟨h, fun v => ?_, fun v hv => ?_, fun info' h' => ?_, ?_⟩
  · rw [blacklistSession, h]
    exact hs.find?_eraseUsername _ _
  · rw [find?_blacklistSession, if_neg hv]
  · rw [find?_blacklistSession, if_pos rfl, h] at h'
    cases h'
    rfl
  · rw [blacklistSession, h]

theorem Sound.drops_removeSession (hs : Sound m) (h : m.sessions.find? s = some info) :
    Drops m (removeSession m s) s info := by
  refine ⟨h, fun v => ?_, fun v hv => ?_, fun info' h' => ?_, ?_⟩
  · rw [removeSession, h]
    exact hs.find?_eraseUsername _ _
  · rw [find?_removeSession, if_neg hv]
  · rw [find?_removeSession, if_pos rfl] at h'
    cases h'
  · rw [removeSession, h]

theorem Sound.blacklist (hs : Sound m) (s : String) : Sound (blacklistSession m s) := by
  cases h : m.sessions.find? s with
  | none =>
    rw [blacklistSession, h]
    exact hs
  | some info => exact hs.drop (hs.drops_blacklistSession h)

theorem Sound.remove (hs : Sound m) (s : String) : Sound (removeSession m s) := by
  cases h : m.sessions.find? s with
  | none =>
    rw [removeSession, h]
    exact hs
  | some info => exact hs.drop (hs.drops_removeSession h)

end Logistics.SessionManager
