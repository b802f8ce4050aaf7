import Mathlib.Data.Finset.Card
import Logistics.Reachability

namespace Logistics.ChatHub

open Reachability Function

structure Client where
  pointer : Nat
  username : String
  deriving DecidableEq

structure Hub (μ : Type) where
  clients : Finset Client
  clientsByName : String → Option (Finset Client)
  closes : Client → Nat
  queued : Client → List μ
  registered : Finset Client

/-- The order in which `range` goes through a map. -/
structure RangeOrder where
  visit : Finset Client → List Client
  nodup : ∀ clients, (visit clients).Nodup
  mem_iff : ∀ clients client, client ∈ visit clients ↔ client ∈ clients

variable {μ : Type}

def newHub : Hub μ := ⟨∅, fun _ => none, fun _ => 0, fun _ => [], ∅⟩

variable (hub : Hub μ) (client : Client)

def registerClient : Hub μ :=
  { hub with
    clients := insert client hub.clients
    clientsByName := update hub.clientsByName client.username
      (some (insert client ((hub.clientsByName client.username).getD ∅)))
    registered := insert client hub.registered }

def removeClient : Bool × Hub μ :=
  if client ∉ hub.clients then (false, hub)
  else (true, { hub with
    clients := hub.clients.erase client
    clientsByName :=
      match hub.clientsByName client.username with
      | none => hub.clientsByName
      | some namedClients =>
        update hub.clientsByName client.username
          (if namedClients.erase client = ∅ then none else some (namedClients.erase client))
    closes := update hub.closes client (hub.closes client + 1) })

def enqueue (full : Bool) (message : μ) : Bool × Hub μ :=
  if 0 < hub.closes client ∨ full then (false, hub)
  else (true, { hub with queued := update hub.queued client (hub.queued client ++ [message]) })

def broadcastTo (full : Client → Bool) (message : μ) (hub : Hub μ) (client : Client) : Hub μ :=
  if client ∈ hub.clients then
    let sent := enqueue hub client (full client) message
    if sent.1 then sent.2 else (removeClient sent.2 client).2
  else hub

def broadcastMessage (order : RangeOrder) (full : Client → Bool) (message : μ) : Hub μ :=
  (order.visit hub.clients).foldl (broadcastTo full message) hub

def shutdown (order : RangeOrder) : Hub μ :=
  (order.visit hub.clients).foldl (fun hub client => (removeClient hub client).2) hub

inductive Event (μ : Type)
  | register (username : String)
  | unregister (client : Client)
  | broadcast (order : RangeOrder) (full : Client → Bool) (message : μ)
  | shutdown (order : RangeOrder)
  | reply (client : Client) (full : Bool) (message : μ)

def step : Event μ → Hub μ
  | .register username => registerClient hub ⟨hub.registered.card, username⟩
  | .unregister client => (removeClient hub client).2
  | .broadcast order full message => broadcastMessage hub order full message
  | .shutdown order => ChatHub.shutdown hub order
  | .reply client full message => (enqueue hub client full message).2

def run (events : List (Event μ)) : Hub μ := events.foldl step newHub

def named (name : String) : Finset Client := (hub.clientsByName name).getD ∅

structure Indexed : Prop where
  filed : ∀ name client, client ∈ named hub name ↔ client ∈ hub.clients ∧ client.username = name
  nonempty : ∀ name, hub.clientsByName name ≠ some ∅

structure Sound : Prop where
  indexed : Indexed hub
  pointers : ∀ client ∈ hub.registered, client.pointer < hub.registered.card
  subset : hub.clients ⊆ hub.registered
  closes : ∀ client, hub.closes client = if client ∈ hub.registered ∧ client ∉ hub.clients then 1 else 0

variable {hub client} {hub' hub'' : Hub μ}

structure Shrinks (hub hub' : Hub μ) : Prop where
  indexed : Indexed hub → Indexed hub'
  subset : hub'.clients ⊆ hub.clients
  closes : ∀ client, hub'.closes client =
    hub.closes client + if client ∈ hub.clients ∧ client ∉ hub'.clients then 1 else 0
  registered : hub'.registered = hub.registered

theorem Shrinks.refl (hub : Hub μ) : Shrinks hub hub := ⟨id, Finset.Subset.refl _, fun client => by simp, rfl⟩

theorem Shrinks.trans (h : Shrinks hub hub') (h' : Shrinks hub' hub'') : Shrinks hub hub'' where
  indexed := h'.indexed ∘ h.indexed
  subset := h'.subset.trans h.subset
  closes client := by
    rw [h'.closes, h.closes]
    have hold := @h.subset client
    have hmid := @h'.subset client
    by_cases hin : client ∈ hub'.clients
    · simp [hin, hold hin]
    · simp [hin, mt hmid hin]
  registered := h'.registered.trans h.registered

theorem Shrinks.sound (h : Shrinks hub hub') (hsound : Sound hub) : Sound hub' where
  indexed := h.indexed hsound.indexed
  pointers := h.registered ▸ hsound.pointers
  subset := h.registered ▸ h.subset.trans hsound.subset
  closes client := by
    have hold := @h.subset client
    have hmid := @hsound.subset client
    rw [h.closes, hsound.closes, h.registered]
    by_cases hin : client ∈ hub.clients
    · simp [hin, hmid hin]
    · simp [hin, mt hold hin]

theorem indexed_registerClient (h : Indexed hub) (client : Client) : Indexed (registerClient hub client) where
  filed name other := by
    by_cases hname : name = client.username
    · subst hname
      have hfiled := h.filed client.username other
      simp only [named] at hfiled
      simp only [named, registerClient, update_self, Option.getD_some, Finset.mem_insert, hfiled]
      grind
    · have hfiled := h.filed name other
      simp only [named] at hfiled
      simp only [named, registerClient, update_of_ne hname, hfiled, Finset.mem_insert]
      grind
  nonempty name hempty := by
    by_cases hname : name = client.username
    · subst hname
      simp [registerClient] at hempty
    · simp only [registerClient, update_of_ne hname] at hempty
      exact h.nonempty name hempty

theorem removeClient_of_notMem (h : client ∉ hub.clients) : removeClient hub client = (false, hub) := if_pos h

theorem indexed_removeClient (h : Indexed hub) (client : Client) : Indexed (removeClient hub client).2 := by
  by_cases hin : client ∈ hub.clients
  swap
  · rwa [removeClient_of_notMem hin]
  have hmem := (h.filed client.username client).2 ⟨hin, rfl⟩
  rw [removeClient, if_neg (not_not.2 hin)]
  cases hnamed : hub.clientsByName client.username with
  | none => simp [named, hnamed] at hmem
  | some namedClients =>
    have hat : named hub client.username = namedClients := by rw [named, hnamed, Option.getD_some]
    constructor
    · intro name other
      have hfiled := h.filed name other
      by_cases hname : name = client.username
      · subst hname
        simp only [named, update_self]
        split_ifs with hempty
        · have : other ∉ namedClients.erase client := hempty ▸ Finset.notMem_empty other
          grind
        · simp only [Option.getD_some, Finset.mem_erase]
          grind
      · simp only [named, update_of_ne hname] at hfiled ⊢
        grind
    · intro name hempty
      by_cases hname : name = client.username
      · subst hname
        simp only [update_self] at hempty
        split_ifs at hempty with he
        exact he (Option.some.inj hempty)
      · simp only [update_of_ne hname] at hempty
        exact h.nonempty name hempty

theorem shrinks_removeClient (hub : Hub μ) (client : Client) : Shrinks hub (removeClient hub client).2 := by
  by_cases hin : client ∈ hub.clients
  swap
  · rw [removeClient_of_notMem hin]
    exact Shrinks.refl hub
  refine ⟨fun h => indexed_removeClient h client, ?_, fun other => ?_, ?_⟩ <;>
    simp only [removeClient, hin, not_true_eq_false, if_false]
  · exact Finset.erase_subset _ _
  · by_cases hother : other = client
    · subst hother
      simp [hin]
    · simp [hother]

theorem shrinks_enqueue (hub : Hub μ) (client : Client) (full : Bool) (message : μ) :
    Shrinks hub (enqueue hub client full message).2 := by
  unfold enqueue
  split
  · exact Shrinks.refl hub
  · exact ⟨fun h => ⟨h.filed, h.nonempty⟩, Finset.Subset.refl _, fun client => by simp, rfl⟩

theorem shrinks_broadcastTo (full : Client → Bool) (message : μ) (client : Client) (hub : Hub μ) :
    Shrinks hub (broadcastTo full message hub client) := by
  have hsent := shrinks_enqueue hub client (full client) message
  unfold broadcastTo
  split
  · dsimp only
    split
    · exact hsent
    · exact hsent.trans (shrinks_removeClient _ client)
  · exact Shrinks.refl hub

theorem shrinks_broadcasts (full : Client → Bool) (message : μ) (hub : Hub μ) (visited : List Client) :
    Shrinks hub (visited.foldl (broadcastTo full message) hub) :=
  foldl_relates Shrinks.refl Shrinks.trans hub fun client _ => shrinks_broadcastTo full message client

theorem sound_registerClient (h : Sound hub) (username : String) :
    Sound (registerClient hub ⟨hub.registered.card, username⟩) := by
  have hnew : (⟨hub.registered.card, username⟩ : Client) ∉ hub.registered := fun hin => (h.pointers _ hin).false
  refine ⟨indexed_registerClient h.indexed _, fun client hin => ?_, Finset.insert_subset_insert _ h.subset,
    fun client => ?_⟩
  · rw [registerClient, Finset.card_insert_of_notMem hnew]
    obtain rfl | hold := Finset.mem_insert.1 hin
    · exact Nat.lt_succ_self _
    · exact (h.pointers client hold).trans (Nat.lt_succ_self _)
  · have hcloses := h.closes client
    simp only [registerClient, Finset.mem_insert, hcloses]
    by_cases hclient : client = ⟨hub.registered.card, username⟩
    · subst hclient
      simp [hnew]
    · simp [hclient]

theorem shrinks_step (hub : Hub μ) (event : Event μ) :
    Shrinks hub (step hub event) ∨ ∃ username, event = .register username := by
  cases event with
  | register username => exact .inr ⟨username, rfl⟩
  | unregister client => exact .inl (shrinks_removeClient hub client)
  | broadcast order full message => exact .inl (shrinks_broadcasts full message hub _)
  | shutdown order =>
    exact .inl (foldl_relates Shrinks.refl Shrinks.trans hub fun client _ hub => shrinks_removeClient hub client)
  | reply client full message => exact .inl (shrinks_enqueue hub client full message)

theorem sound_step (h : Sound hub) (event : Event μ) : Sound (step hub event) := by
  obtain hshrinks | ⟨username, rfl⟩ := shrinks_step hub event
  · exact hshrinks.sound h
  · exact sound_registerClient h username

theorem sound_run (events : List (Event μ)) : Sound (run events) := by
  refine foldl_invariant ⟨⟨?_, ?_⟩, ?_, ?_, ?_⟩ fun hub event _ h => sound_step h event <;> simp [newHub, named]

theorem closes_step (event : Event μ) (client : Client) : (step hub event).closes client =
    hub.closes client + if client ∈ hub.clients ∧ client ∉ (step hub event).clients then 1 else 0 := by
  obtain hshrinks | ⟨username, rfl⟩ := shrinks_step hub event
  · exact hshrinks.closes client
  · simp +contextual [step, registerClient]

theorem queued_removeClient (hub : Hub μ) (client : Client) : (removeClient hub client).2.queued = hub.queued := by
  unfold removeClient
  split <;> rfl

variable {full : Client → Bool} {message : μ}

theorem queued_broadcastTo_of_ne {other : Client} (h : client ≠ other) :
    (broadcastTo full message hub other).queued client = hub.queued client := by
  unfold broadcastTo enqueue
  split_ifs <;> simp [update_of_ne h, queued_removeClient]

theorem queued_broadcastTo_self (h : client ∈ (broadcastTo full message hub client).clients) :
    (broadcastTo full message hub client).queued client = hub.queued client ++ [message] := by
  unfold broadcastTo enqueue removeClient at h ⊢
  split_ifs at h ⊢ <;> simp_all

theorem queued_broadcasts {visited : List Client} (hnodup : visited.Nodup)
    (h : client ∈ (visited.foldl (broadcastTo full message) hub).clients) :
    (visited.foldl (broadcastTo full message) hub).queued client =
      hub.queued client ++ if client ∈ visited then [message] else [] := by
  induction visited generalizing hub with
  | nil => simp
  | cons other visited ih =>
    rw [List.nodup_cons] at hnodup
    rw [List.foldl_cons] at h ⊢
    rw [ih hnodup.2 h]
    by_cases hother : client = other
    · subst hother
      have hstays := (shrinks_broadcasts full message _ visited).subset h
      rw [queued_broadcastTo_self hstays]
      simp [hnodup.1]
    · rw [queued_broadcastTo_of_ne hother]
      simp [hother]

theorem queued_broadcastMessage {order : RangeOrder} (h : client ∈ (broadcastMessage hub order full message).clients) :
    (broadcastMessage hub order full message).queued client = hub.queued client ++ [message] := by
  have hin := (shrinks_broadcasts full message hub _).subset h
  rw [broadcastMessage, queued_broadcasts (order.nodup _) h, if_pos ((order.mem_iff _ _).2 hin)]

/-- The two indexes of the hub agree, a channel is closed once, when its client is taken out,
and a broadcast reaches every client that stays. -/
theorem hub_indexes_and_channels_consistent (events : List (Event μ)) : (∀ client, client ∈ (run events).clients ↔
      ∃ name namedClients, (run events).clientsByName name = some namedClients ∧ client ∈ namedClients) ∧
    (∀ name name' namedClients namedClients', name ≠ name' → (run events).clientsByName name = some namedClients →
      (run events).clientsByName name' = some namedClients' → Disjoint namedClients namedClients') ∧
    (∀ name namedClients, (run events).clientsByName name = some namedClients →
      namedClients.Nonempty ∧ ∀ client ∈ namedClients, client.username = name) ∧ (∀ client, (run events).closes client =
      if client ∈ (run events).registered ∧ client ∉ (run events).clients then 1 else 0) ∧
    (∀ event client, (run (events ++ [event])).closes client = (run events).closes client +
      if client ∈ (run events).clients ∧ client ∉ (run (events ++ [event])).clients then 1 else 0) ∧
    ∀ order full message, ∀ client ∈ (run (events ++ [.broadcast order full message])).clients,
      (run (events ++ [.broadcast order full message])).queued client = (run events).queued client ++ [message] := by
  have hsound := sound_run events
  have hfiled : ∀ {name namedClients}, (run events).clientsByName name = some namedClients →
      ∀ client, client ∈ namedClients ↔ client ∈ (run events).clients ∧ client.username = name := by
    intro name namedClients hname client
    rw [← hsound.indexed.filed, named, hname, Option.getD_some]
  have hrun : ∀ event, run (events ++ [event]) = step (run events) event := fun event => by
    rw [run, List.foldl_append]
    rfl
  refine ⟨fun client => ⟨fun hin => ?_, ?_⟩, fun name name' namedClients namedClients' hne hname hname' => ?_,
    fun name namedClients hname => ⟨?_, fun client hin => ((hfiled hname client).1 hin).2⟩, hsound.closes,
    fun event client => ?_, fun order full message client hin => ?_⟩
  · have hmem := (hsound.indexed.filed client.username client).2 ⟨hin, rfl⟩
    unfold named at hmem
    cases hnamed : (run events).clientsByName client.username with
    | none => simp [hnamed] at hmem
    | some namedClients => exact ⟨_, namedClients, hnamed, by simpa [hnamed] using hmem⟩
  · rintro ⟨name, namedClients, hname, hin⟩
    exact ((hfiled hname client).1 hin).1
  · refine Finset.disjoint_left.2 fun client hin hin' => hne ?_
    rw [← ((hfiled hname client).1 hin).2, ((hfiled hname' client).1 hin').2]
  · refine Finset.nonempty_iff_ne_empty.2 fun hempty => hsound.indexed.nonempty name ?_
    rw [hname, hempty]
  · rw [hrun]
    exact closes_step event client
  · rw [hrun] at hin ⊢
    exact queued_broadcastMessage hin

noncomputable instance : Inhabited RangeOrder where
  default := ⟨Finset.toList, Finset.nodup_toList, fun _ _ => Finset.mem_toList⟩

def ana : Client := ⟨0, "ana"⟩

def bo : Client := ⟨1, "bo"⟩

def boLeft : List (Event String) := [.register "ana", .register "bo", .unregister bo]

theorem clients_boLeft : (run boLeft).clients = {ana} := by decide

theorem broadcast_to_remaining : (run (boLeft ++ [.broadcast default (fun _ => false) "hi"])).queued ana = ["hi"] ∧
      (run (boLeft ++ [.broadcast default (fun _ => false) "hi"])).closes bo = 1 := by
  obtain ⟨-, -, -, hclosed, hcloses, hqueued⟩ := hub_indexes_and_channels_consistent boLeft
  have hvisit : (default : RangeOrder).visit (run boLeft).clients = [ana] := by
    rw [clients_boLeft]
    exact Finset.toList_singleton ana
  have hclients : (run (boLeft ++ [.broadcast default (fun _ => false) "hi"])).clients = {ana} := by
    rw [run, List.foldl_append]
    change (broadcastMessage (run boLeft) default (fun _ => false) "hi").clients = _
    rw [broadcastMessage, hvisit]
    decide
  constructor
  · rw [hqueued default (fun _ => false) "hi" ana (by rw [hclients]; exact Finset.mem_singleton_self ana)]
    rfl
  · rw [hcloses, hclosed, hclients, clients_boLeft]
    decide

end Logistics.ChatHub
