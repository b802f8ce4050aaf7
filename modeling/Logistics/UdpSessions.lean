import Logistics.JsonManager
import Logistics.Reachability
import Logistics.SessionManager

namespace Logistics.UdpSessions

open RowVersions SessionManager JsonManager DecimalText List

inductive PosixAddress
  | v4 (addr : BitVec 32) (port : BitVec 16)
  | v6 (addr : BitVec 128) (port : BitVec 16)

/-- What is assumed of `inet_ntop` for either family. -/
structure InetNtop where
  v4 : BitVec 32 → String
  v6 : BitVec 128 → String
  v4_injective : Function.Injective v4
  v6_injective : Function.Injective v6
  v4_text : ∀ addr, ':' ∉ (v4 addr).toList ∧ '_' ∉ (v4 addr).toList ∧ (v4 addr).length ≤ 45
  v6_text : ∀ addr, ':' ∈ (v6 addr).toList ∧ '_' ∉ (v6 addr).toList ∧ (v6 addr).length ≤ 45

def sessionIdSize : Nat := 64

variable (ntop : InetNtop)

def endpoint : PosixAddress → Address
  | .v4 addr port => ⟨ntop.v4 addr, port.toNat⟩
  | .v6 addr port => ⟨ntop.v6 addr, port.toNat⟩

def nextSession (m : Sessions) : Sessions :=
  if m.sessionCounter + 1 < 2 ^ 64 then (createSession m).2
  else { m with sessions := m.sessions.put ⟨tcpSessionId 0, false, false, "", "", .tcp, none⟩, sessionCounter := 0 }

def getUdpEndpoint (m : Sessions) (sessionId : String) : Option Address :=
  (m.sessions.find? sessionId).bind SessionInfo.udpEndpoint

inductive Event
  | accept
  | datagram (sender : PosixAddress)
  | mark (sessionId clientType username : String)
  | blacklist (sessionId : String)
  | remove (sessionId : String)

def step (m : Sessions) : Event → Sessions
  | .accept => nextSession m
  | .datagram sender => (getOrCreateUdpSession m (endpoint ntop sender)).2
  | .mark sessionId clientType username => markAuthenticated m sessionId clientType username
  | .blacklist sessionId => blacklistSession m sessionId
  | .remove sessionId => removeSession m sessionId

def run (events : List Event) : Sessions := events.foldl (step ntop) SessionManager.start

def Owned (sessionId : String) (info : SessionInfo) : Prop :=
  (info.type = .tcp ∧ ∃ n < 2 ^ 64, sessionId = tcpSessionId n) ∨
    info.type = .udp ∧ ∃ sender, sessionId = makeUdpSessionId (endpoint ntop sender) ∧
      info.udpEndpoint = some (endpoint ntop sender)

structure Sound (m : Sessions) : Prop where
  counter : m.sessionCounter < 2 ^ 64
  owned : ∀ sessionId info, m.sessions.find? sessionId = some info → Owned ntop sessionId info

variable {ntop} {m : Sessions}

theorem endpoint_text (ntop : InetNtop) (sender : PosixAddress) : '_' ∉ (endpoint ntop sender).ip.toList ∧
    (endpoint ntop sender).ip.length ≤ 45 ∧ (endpoint ntop sender).port < 2 ^ 16 := by
  cases sender with
  | v4 addr port => exact ⟨(ntop.v4_text addr).2.1, (ntop.v4_text addr).2.2, port.isLt⟩
  | v6 addr port => exact ⟨(ntop.v6_text addr).2.1, (ntop.v6_text addr).2.2, port.isLt⟩

theorem endpoint_injective : Function.Injective (endpoint ntop) := by
  have hfamilies (addr₄ : BitVec 32) (addr₆ : BitVec 128) : ntop.v4 addr₄ ≠ ntop.v6 addr₆ := by
    intro h
    have hcolon := (ntop.v6_text addr₆).1
    rw [← h] at hcolon
    exact (ntop.v4_text addr₄).1 hcolon
  intro a b h
  cases a with
  | v4 addr port =>
    cases b with
    | v4 addr' port' =>
      obtain ⟨hip, hport⟩ := Address.mk.inj h
      rw [ntop.v4_injective hip, BitVec.eq_of_toNat_eq hport]
    | v6 addr' port' => exact absurd (Address.mk.inj h).1 (hfamilies addr addr')
  | v6 addr port =>
    cases b with
    | v4 addr' port' => exact absurd (Address.mk.inj h).1.symm (hfamilies addr' addr)
    | v6 addr' port' =>
      obtain ⟨hip, hport⟩ := Address.mk.inj h
      rw [ntop.v6_injective hip, BitVec.eq_of_toNat_eq hport]

theorem length_toString_le {n k : Nat} (hk : 0 < k) (h : n < 10 ^ k) : (toString n).length ≤ k :=
  (Nat.length_repr_le_iff hk).2 h

def words (w count n : Nat) : List Nat := (range count).reverse.map fun k => n / 2 ^ (w * k) % 2 ^ w

theorem words_lt (w count n : Nat) : ∀ m ∈ words w count n, m < 2 ^ w :=
  forall_mem_map.mpr fun _ _ => Nat.mod_lt _ (Nat.two_pow_pos w)

/-- The text of an IPv6 address has all its groups: a run of zeros is not abbreviated. -/
def inetNtop : InetNtop where
  v4 addr := groups '.' 10 (words 8 4 addr.toNat)
  v6 addr := groups ':' 16 (words 16 8 addr.toNat)
  v4_injective a b h := by
    have hwords := groups_inj (toDigits_injective (by decide) (by decide))
      (fun _ hc => forall_mem_toDigits (P := (· ≠ '.')) (by decide) (by decide) _ hc rfl) (by simp [words])
      (by simp [words]) h
    simp [words, range_succ] at hwords
    exact BitVec.eq_of_toNat_eq (by omega)
  v6_injective a b h := by
    have hwords := groups_inj (toDigits_injective (by decide) (by decide))
      (fun _ hc => forall_mem_toDigits (P := (· ≠ ':')) (by decide) (by decide) _ hc rfl) (by simp [words])
      (by simp [words]) h
    simp [words, range_succ] at hwords
    exact BitVec.eq_of_toNat_eq (by omega)
  v4_text addr := by
    have hwords := fun m hm => (words_lt 8 4 addr.toNat m hm).trans (by decide : 2 ^ 8 < 10 ^ 3)
    obtain ⟨hchars, hlength⟩ := groups_text (P := fun c => c ≠ ':' ∧ c ≠ '_') (by decide) (by decide) (by decide)
      (by decide : '.' ≠ ':' ∧ '.' ≠ '_') hwords
    exact ⟨fun h => (hchars _ h).1 rfl, fun h => (hchars _ h).2 rfl, hlength.trans (by simp [words])⟩
  v6_text addr := by
    have hwords := words_lt 16 8 addr.toNat
    obtain ⟨hchars, hlength⟩ := groups_text (P := (· ≠ '_')) (b := 16) (k := 4) (by decide) (by decide) (by decide)
      (by decide : ':' ≠ '_') hwords
    exact ⟨by simp [groups, words, range_succ], fun h => hchars _ h rfl, hlength.trans (by simp [words])⟩

theorem makeUdpSessionId_inj {a b : Address} (ha : '_' ∉ a.ip.toList) (hb : '_' ∉ b.ip.toList)
    (h : makeUdpSessionId a = makeUdpSessionId b) : a = b := by
  have htext := congrArg String.toList h
  simp only [makeUdpSessionId, String.toList_append, append_assoc, append_cancel_left_eq] at htext
  have hsplit := (append_cons_inj_of_notMem hb (by simp)).1 htext.symm
  obtain ⟨ip, port⟩ := a
  obtain ⟨ip', port'⟩ := b
  obtain rfl : ip' = ip := String.toList_injective hsplit.1
  obtain rfl : port' = port := toString_injective (String.toList_injective hsplit.2.2)
  rfl

theorem makeUdpSessionId_endpoint_inj {a b : PosixAddress} :
    makeUdpSessionId (endpoint ntop a) = makeUdpSessionId (endpoint ntop b) ↔ a = b := by
  refine ⟨fun h => ?_, fun h => by rw [h]⟩
  exact endpoint_injective (makeUdpSessionId_inj (endpoint_text ntop a).1 (endpoint_text ntop b).1 h)

theorem length_udpSessionId_lt (sender : PosixAddress) :
    (makeUdpSessionId (endpoint ntop sender)).length < sessionIdSize := by
  obtain ⟨-, hip, hport⟩ := endpoint_text ntop sender
  have hdigits := length_toString_le (k := 5) (by decide) (hport.trans (by decide))
  simp only [makeUdpSessionId, String.length_append]
  change 4 + _ + 1 + _ < 64
  omega

theorem length_tcpSessionId_lt {n : Nat} (h : n < 2 ^ 64) : (tcpSessionId n).length < sessionIdSize := by
  have hdigits := length_toString_le (k := 20) (by decide) (h.trans (by decide))
  simp only [tcpSessionId, String.length_append]
  change 12 + _ < 64
  omega

theorem Owned.length_lt {sessionId : String} {info : SessionInfo} (h : Owned ntop sessionId info) :
    sessionId.length < sessionIdSize := by
  rcases h with ⟨-, n, hn, rfl⟩ | ⟨-, sender, rfl, -⟩
  · exact length_tcpSessionId_lt hn
  · exact length_udpSessionId_lt sender

theorem Owned.of_sender {sender : PosixAddress} {info : SessionInfo}
    (h : Owned ntop (makeUdpSessionId (endpoint ntop sender)) info) :
    info.type = .udp ∧ info.udpEndpoint = some (endpoint ntop sender) := by
  rcases h with ⟨-, n, -, hid⟩ | ⟨htype, owner, hid, hendpoint⟩
  · exact absurd hid (makeUdpSessionId_ne_tcpSessionId _ n)
  · obtain rfl := makeUdpSessionId_endpoint_inj.1 hid
    exact ⟨htype, hendpoint⟩

theorem Sound.nextSession (h : Sound ntop m) : Sound ntop (nextSession m) := by
  have hput (n : Nat) (hn : n < 2 ^ 64) (sessionId : String) (info : SessionInfo)
      (hfind : (if sessionId = tcpSessionId n then some ⟨tcpSessionId n, false, false, "", "", .tcp, none⟩
        else m.sessions.find? sessionId) = some info) : Owned ntop sessionId info := by
    split at hfind
    · next hid =>
      obtain rfl := Option.some.inj hfind
      exact .inl ⟨rfl, n, hn, hid⟩
    · exact h.owned sessionId info hfind
  rw [UdpSessions.nextSession]
  split
  · next hlt => exact ⟨hlt, fun s info hfind => hput _ hlt s info (find?_createSession m s ▸ hfind)⟩
  · have hpos := Nat.two_pow_pos 64
    exact ⟨hpos, fun s info hfind => hput 0 hpos s info ((find?_put _ _ s).symm.trans hfind)⟩

theorem Sound.datagram (h : Sound ntop m) (sender : PosixAddress) :
    Sound ntop (getOrCreateUdpSession m (endpoint ntop sender)).2 := by
  refine ⟨h.counter, fun s info hfind => ?_⟩
  rw [find?_getOrCreateUdpSession] at hfind
  split at hfind
  · next hid =>
    obtain rfl := Option.some.inj hfind
    refine .inr ⟨?_, sender, hid, ?_⟩
    · cases hold : m.sessions.find? s with
      | none => rfl
      | some old => exact (hid ▸ h.owned s old hold : Owned ntop _ old).of_sender.1
    · cases m.sessions.find? s with
      | none => rfl
      | some old => rfl
  · exact h.owned s info hfind

theorem Sound.change (h : Sound ntop m) {m' : Sessions} {v : String} {f : SessionInfo → SessionInfo}
    (hfind : ∀ s, m'.sessions.find? s = if s = v then (m.sessions.find? s).map f else m.sessions.find? s)
    (hcounter : m'.sessionCounter = m.sessionCounter) (htype : ∀ info, (f info).type = info.type)
    (hendpoint : ∀ info, (f info).udpEndpoint = info.udpEndpoint) : Sound ntop m' := by
  refine ⟨hcounter ▸ h.counter, fun s info hinfo => ?_⟩
  rw [hfind] at hinfo
  split at hinfo
  · obtain ⟨old, hold, rfl⟩ := Option.map_eq_some_iff.1 hinfo
    have howned := h.owned s old hold
    rwa [Owned, htype, hendpoint]
  · exact h.owned s info hinfo

theorem Sound.step (h : Sound ntop m) (e : Event) : Sound ntop (step ntop m e) := by
  cases e with
  | accept => exact h.nextSession
  | datagram sender => exact h.datagram sender
  | mark s clientType u =>
    refine h.change (find?_markAuthenticated m s clientType u) ?_ (fun _ => rfl) fun _ => rfl
    change (markAuthenticated m s clientType u).sessionCounter = m.sessionCounter
    rw [markAuthenticated]
    split <;> rfl
  | blacklist s =>
    refine h.change (find?_blacklistSession m s) ?_ (fun _ => rfl) fun _ => rfl
    change (blacklistSession m s).sessionCounter = m.sessionCounter
    rw [blacklistSession]
    split <;> rfl
  | remove s =>
    refine ⟨?_, fun v info hfind => ?_⟩
    · rw [UdpSessions.step, removeSession]
      split <;> exact h.counter
    · rw [UdpSessions.step, find?_removeSession] at hfind
      split at hfind
      · cases hfind
      · exact h.owned v info hfind

theorem sound_run (ntop : InetNtop) (events : List Event) : Sound ntop (run ntop events) :=
  Reachability.foldl_invariant ⟨by decide, fun _ _ h => absurd h (Option.some_ne_none _).symm⟩ fun _ e _ h => h.step e

/-- Peers share a session only if they are one peer, no session of a peer is one of a connection,
ids fit into the slots, and what is sent to a peer's session goes to the peer. -/
theorem udp_sessions_not_confused (ntop : InetNtop) (events : List Event) :
    (∀ m m' a b, (getOrCreateUdpSession m (endpoint ntop a)).1 = (getOrCreateUdpSession m' (endpoint ntop b)).1 ↔
      a = b) ∧ (∀ a n, makeUdpSessionId (endpoint ntop a) ≠ tcpSessionId n) ∧
    (∀ sessionId info, (run ntop events).sessions.find? sessionId = some info →
      sessionId.length < sessionIdSize ∧ safeStrcpy sessionIdSize sessionId = sessionId) ∧
    (∀ a info, (run ntop events).sessions.find? (makeUdpSessionId (endpoint ntop a)) = some info → info.type = .udp ∧
        getUdpEndpoint (run ntop events) (makeUdpSessionId (endpoint ntop a)) = some (endpoint ntop a)) ∧
    ∀ a b, endpoint ntop a = endpoint ntop b ↔ a = b := by
  have hsound := sound_run ntop events
  refine ⟨fun _ _ _ _ => makeUdpSessionId_endpoint_inj, fun _ _ => makeUdpSessionId_ne_tcpSessionId _ _,
    fun s info hfind => ?_, fun a info hfind => ?_, fun _ _ => endpoint_injective.eq_iff⟩
  · have hlength := (hsound.owned s info hfind).length_lt
    exact ⟨hlength, safeStrcpy_of_length_lt hlength⟩
  · obtain ⟨htype, hendpoint⟩ := (hsound.owned _ info hfind).of_sender
    refine ⟨htype, ?_⟩
    rw [getUdpEndpoint, hfind]
    exact hendpoint

def peer : PosixAddress := .v4 0x0a000007 4000

def twoPeers : List Event := [.accept, .datagram peer, .datagram (.v6 0x10000000000000000000000000000 4000)]

theorem peer_among_two : endpoint inetNtop peer = ⟨"10.0.0.7", 4000⟩ ∧
    getUdpEndpoint (run inetNtop twoPeers) (makeUdpSessionId (endpoint inetNtop peer)) =
      some (endpoint inetNtop peer) := by
  have hsome : ((run inetNtop twoPeers).sessions.find? (makeUdpSessionId (endpoint inetNtop peer))).isSome = true := by
    decide +kernel
  obtain ⟨info, hinfo⟩ := Option.isSome_iff_exists.mp hsome
  exact ⟨by decide +kernel, ((udp_sessions_not_confused inetNtop twoPeers).2.2.2.1 peer info hinfo).2⟩

end Logistics.UdpSessions
