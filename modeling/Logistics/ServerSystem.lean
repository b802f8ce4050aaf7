import Logistics.ServerEffects

namespace Logistics.ServerSystem

open Ipc Deserialize MessageHandler AuthModule SessionManager TimerManager Worker Server Function

/-- Where a worker thread is in its loop. A request comes with its position in the
request ring. -/
inductive Phase
  | idle
  | taken (position : Nat) (req : RequestSlot)
  | acknowledged (position : Nat) (req : RequestSlot)
  | pushing (responses : List Slot)

/-- The two processes and what they share. The response ring is a queue. One call
of `process_request` is one step of the system. The last two fields are records
that nothing reads: the sessions on which a login of a user was accepted, with the
row of the user, and the messages whose retry timer an acknowledgment has
cancelled. -/
structure System (ι : Type) where
  reactor : Reactor
  responses : List Slot
  threads : ι → Phase
  store : Store
  running : Bool
  logins : List (String × Credential)
  acknowledged : List Sent

variable {ι : Type} [DecidableEq ι]

def start (store : Store) : System ι :=
  ⟨Server.start, [], fun _ => .idle, { store with deadSessions := ∅ }, true, [], []⟩

/-- The user whose name and password the request presents, if it gets past the
checks of `process_request`. -/
def loginOf (parse : String → Option Json) (req : RequestSlot) (store : Store) : Option Credential :=
  if req.isDisconnect ∨ (req.sessionId ≠ "" ∧ req.sessionId ∈ store.deadSessions) ∨ req.isBlacklisted then none
  else
    (parse req.rawJson).bind fun root =>
      let msg := deserializeMessage root
      if categorizeMessage msg.msgType = .authRequest then
        (store.credentials.find? (loginFields msg).1).filter fun row => row.passwordHash = (loginFields msg).2
      else none

def cancelled (r : Reactor) (resp : Slot) : Option Sent :=
  if resp.command = .cancelAckTimer then
    (getSessionInfo r.sessions resp.sessionId).bind fun info =>
      (r.timers.entries.find? ⟨.ack, resp.sessionId, resp.timerKey⟩).bind fun e =>
        match e.callback with
        | .ackTimeout _ _ payload _ _ => some ⟨info, payload⟩
        | .keepaliveTimeout _ => none
  else none

inductive Action (ι : Type)
  | reactor (e : Server.Event)
  | dispatch (now : Nat)
  | take (i : ι)
  | acknowledge (i : ι) (stamp : String)
  | process (i : ι) (o : Oracle)
  | push (i : ι)

variable (cfg : Config) (parse : String → Option Json)

/-- An exception that leaves `process_request` ends the worker process, which is
not started again. -/
def Action.apply (σ : System ι) : Action ι → System ι
  | .reactor e => { σ with reactor := e.apply cfg σ.reactor }
  | .dispatch now =>
    match σ.responses with
    | [] => σ
    | resp :: rest => { σ with
        reactor := dispatchResponse now σ.reactor resp
        responses := rest
        acknowledged := σ.acknowledged ++ (cancelled σ.reactor resp).toList }
  | .take i =>
    match σ.running, σ.threads i, σ.reactor.requests[σ.reactor.taken]? with
    | true, .idle, some req => { σ with
        reactor := takeRequest σ.reactor
        threads := update σ.threads i (.taken σ.reactor.taken req) }
    | _, _, _ => σ
  | .acknowledge i stamp =>
    match σ.running, σ.threads i with
    | true, .taken position req => { σ with
        responses := σ.responses ++ (generateAck parse stamp req).toList
        threads := update σ.threads i (.acknowledged position req) }
    | _, _ => σ
  | .process i o =>
    match σ.running, σ.threads i with
    | true, .acknowledged _ req =>
      let logins := σ.logins ++ ((loginOf parse req σ.store).map fun row => (req.sessionId, row)).toList
      let done := processRequest cfg parse o req σ.store
      match done.1 with
      | none => { σ with store := done.2, running := false, logins := logins }
      | some responses => { σ with
          store := done.2
          threads := update σ.threads i (.pushing responses)
          logins := logins }
    | _, _ => σ
  | .push i =>
    match σ.running, σ.threads i with
    | true, .pushing [] => { σ with threads := update σ.threads i .idle }
    | true, .pushing (resp :: rest) => { σ with
        responses := σ.responses ++ [resp]
        threads := update σ.threads i (.pushing rest) }
    | _, _ => σ

def run (σ : System ι) (actions : List (Action ι)) : System ι := actions.foldl (Action.apply cfg parse) σ

def Action.operates (σ : System ι) : Action ι → Reactor → Op → Prop
  | .reactor e, r, op => e.operates σ.reactor r op
  | .dispatch _, r, op => ∃ resp rest, σ.responses = resp :: rest ∧ slotOperates σ.reactor resp r op
  | _, _, _ => False

variable {cfg parse}

theorem evolves_action {σ : System ι} (action : Action ι) :
    Evolves (action.operates σ) σ.reactor (action.apply cfg parse σ).reactor := by
  cases action with
  | reactor e => exact (does_event e).evolves
  | dispatch now =>
    simp only [Action.apply]
    split
    · exact .refl _
    · next resp rest hq => exact (does_dispatch resp).evolves.mono fun _ _ hop => ⟨resp, rest, hq, hop⟩
  | take i =>
    simp only [Action.apply]
    split
    · exact .same rfl rfl
    · exact .refl _
  | process i o =>
    simp only [Action.apply]
    split
    · split <;> exact .refl _
    · exact .refl _
  | acknowledge | push =>
    simp only [Action.apply]
    split <;> exact .refl _

end Logistics.ServerSystem
