import Logistics.Semaphores
import Logistics.Reachability
import Logistics.Client
import Logistics.Server

namespace Logistics.PendingQueue

open JsonManager Client Semaphores BoundedQueue Reachability List Function
open Server (bufferSize)

section Buffers

def nul : Char := '\x00'

/-- A text that was printed into a buffer. One character stands for one byte; cJSON ends an
object only if two more bytes fit. -/
structure Text where
  chars : List Char
  terminated : nul ∉ chars
  fits : chars.length + 2 ≤ bufferSize

def cString (buffer : List Char) : List Char := buffer.takeWhile (· ≠ nul)

def strncpy (dst src : List Char) (n : Nat) : List Char :=
  let copied := (cString src).take n
  copied ++ replicate (n - copied.length) nul ++ dst.drop n

def Text.padded (text : Text) : List Char := text.chars ++ replicate (bufferSize - text.chars.length) nul

theorem cString_append_nul {chars : List Char} (h : nul ∉ chars) (rest : List Char) :
    cString (chars ++ nul :: rest) = chars := by
  have hall : ∀ c ∈ chars, decide (c ≠ nul) = true := fun c hc => decide_eq_true fun he => h (he ▸ hc)
  rw [cString, takeWhile_append_of_pos hall, takeWhile_cons_of_neg (by simp), append_nil]

theorem cString_of_notMem {chars : List Char} (h : nul ∉ chars) : cString chars = chars :=
  takeWhile_eq_self_iff.mpr fun _ hc => decide_eq_true fun he => h (he ▸ hc)

theorem Text.padded_eq (text : Text) :
    text.padded = text.chars ++ nul :: replicate (bufferSize - text.chars.length - 1) nul := by
  have hpos : bufferSize - text.chars.length = bufferSize - text.chars.length - 1 + 1 := by
    have := text.fits
    omega
  rw [Text.padded, hpos]
  rfl

theorem Text.cString_padded (text : Text) : cString text.padded = text.chars := by
  rw [text.padded_eq]
  exact cString_append_nul text.terminated _

theorem Text.drop_padded (text : Text) : text.padded.drop (bufferSize - 1) = [nul] := by
  have hfits := text.fits
  rw [Text.padded, drop_append, drop_eq_nil_of_le (by omega), nil_append, drop_replicate,
    show bufferSize - text.chars.length - (bufferSize - 1 - text.chars.length) = 1 by omega]
  rfl

theorem Text.strncpy_slot (text : Text) {slot : List Char} (h : slot.drop (bufferSize - 1) = [nul]) :
    strncpy slot text.chars (bufferSize - 1) = text.padded := by
  have hfits := text.fits
  rw [strncpy, cString_of_notMem text.terminated, take_of_length_le (by omega), h, Text.padded,
    show bufferSize - text.chars.length = bufferSize - 1 - text.chars.length + 1 by omega, append_assoc,
    ← replicate_succ']

theorem Text.cString_strncpy (text : Text) (stack : List Char) :
    cString (strncpy stack text.padded (bufferSize - 1)) = text.chars := by
  have hfits := text.fits
  rw [strncpy, text.cString_padded, take_of_length_le (by omega),
    show bufferSize - 1 - text.chars.length = bufferSize - 1 - text.chars.length - 1 + 1 by omega,
    replicate_succ, append_assoc, cons_append]
  exact cString_append_nul text.terminated _

end Buffers

section Threads

variable {ι : Type} [DecidableEq ι]

inductive Call
  | message (msg : Message)
  | json (text : Text)

/-- Where a thread of one of the two processes is. It holds `inventory_sem` from its check to
its leave, and `elsewhere` in the other functions that take it, none of which changes the
queue. -/
inductive Enqueuer
  | idle
  | waiting (call : Call)
  | checking (call : Call)
  | refused
  | copying (text : Text)
  | counting (text : Text)
  | leaving
  | posting
  | elsewhere

/-- Where the sender thread is. It has taken a token from `message_available_sem` when it
waits for `inventory_sem`; `shifting buffer i` is the loop of `pop_pending_message`. -/
inductive Sender
  | idle
  | waiting
  | checking
  | empty
  | copying
  | shifting (buffer : List Char) (i : Nat)
  | leaving

/-- The queue in the shared memory, its two semaphores and the threads. The texts that were
accepted and those that were popped are recorded; nothing reads the record. -/
structure State (ι : Type) where
  pendingMessages : List (List Char)
  messageCount : Nat
  inventorySem : Nat
  messageAvailableSem : Nat
  enqueuers : ι → Enqueuer
  sender : Sender
  accepted : List Text
  popped : List (List Char)

def init (ι : Type) : State ι where
  pendingMessages := replicate maxPendingMessages (replicate bufferSize nul)
  messageCount := 0
  inventorySem := 1
  messageAvailableSem := 0
  enqueuers := fun _ => .idle
  sender := .idle
  accepted := []
  popped := []

variable (serialize : Message → Option Text)

def Call.text : Call → Option Text
  | .message msg => serialize msg
  | .json text => some text

def State.moveTo (st : State ι) (t : ι) (pc : Enqueuer) : State ι := { st with enqueuers := update st.enqueuers t pc }

def enqueuerStep (st : State ι) (t : ι) : State ι :=
  match st.enqueuers t with
  | .idle => st
  | .waiting call =>
    if 0 < st.inventorySem then { st with inventorySem := st.inventorySem - 1 }.moveTo t (.checking call) else st
  | .checking call =>
    if maxPendingMessages ≤ st.messageCount then st.moveTo t .refused
    else
      match call.text serialize with
      | none => st.moveTo t .refused
      | some text => st.moveTo t (.copying text)
  | .refused => { st with inventorySem := st.inventorySem + 1 }.moveTo t .idle
  | .copying text =>
    { st with
      pendingMessages := st.pendingMessages.set st.messageCount
        (strncpy (st.pendingMessages.getD st.messageCount []) text.chars (bufferSize - 1)) }.moveTo t (.counting text)
  | .counting text =>
    { st with messageCount := st.messageCount + 1, accepted := st.accepted ++ [text] }.moveTo t .leaving
  | .leaving => { st with inventorySem := st.inventorySem + 1 }.moveTo t .posting
  | .posting => { st with messageAvailableSem := st.messageAvailableSem + 1 }.moveTo t .idle
  | .elsewhere => { st with inventorySem := st.inventorySem + 1 }.moveTo t .idle

def senderStep (st : State ι) (stack : List Char) : State ι :=
  match st.sender with
  | .idle =>
    if 0 < st.messageAvailableSem then
      { st with messageAvailableSem := st.messageAvailableSem - 1, sender := .waiting }
    else st
  | .waiting => if 0 < st.inventorySem then { st with inventorySem := st.inventorySem - 1, sender := .checking } else st
  | .checking => { st with sender := if st.messageCount = 0 then .empty else .copying }
  | .empty => { st with inventorySem := st.inventorySem + 1, sender := .idle }
  | .copying => { st with sender := .shifting (strncpy stack (st.pendingMessages.getD 0 []) (bufferSize - 1)) 0 }
  | .shifting buffer i =>
    if i < st.messageCount - 1 then
      { st with
        pendingMessages := st.pendingMessages.set i (st.pendingMessages.getD (i + 1) [])
        sender := .shifting buffer (i + 1) }
    else
      { st with
        messageCount := st.messageCount - 1
        popped := st.popped ++ [cString buffer]
        sender := .leaving }
  | .leaving => { st with inventorySem := st.inventorySem + 1, sender := .idle }

inductive Event (ι : Type)
  | call (t : ι) (call : Call)
  | other (t : ι)
  | enqueuer (t : ι)
  | sender (stack : List Char)
  | wake

def Enqueuer.isIdle : Enqueuer → Bool
  | .idle => true
  | _ => false

def step (st : State ι) : Event ι → State ι
  | .call t call => if (st.enqueuers t).isIdle then st.moveTo t (.waiting call) else st
  | .other t =>
    if (st.enqueuers t).isIdle ∧ 0 < st.inventorySem then
      { st with inventorySem := st.inventorySem - 1 }.moveTo t .elsewhere
    else st
  | .enqueuer t => enqueuerStep serialize st t
  | .sender stack => senderStep st stack
  | .wake => { st with messageAvailableSem := st.messageAvailableSem + 1 }

def run (events : List (Event ι)) : State ι := events.foldl (step serialize) (init ι)

end Threads

section Lock

variable {ι : Type} {enqueuers : ι → Enqueuer} {sender sender' : Sender} {value : Nat} {t : ι} {pc : Enqueuer}
  {st : State ι}

def Enqueuer.inside : Enqueuer → Bool
  | .idle | .waiting _ | .posting => false
  | _ => true

def Sender.inside : Sender → Bool
  | .idle | .waiting => false
  | _ => true

def Inside (enqueuers : ι → Enqueuer) (sender : Sender) : Option ι → Prop
  | none => sender.inside = true
  | some t => (enqueuers t).inside = true

theorem inside_sender_of_ne {b : Option ι} (h : b ≠ none) : Inside enqueuers sender' b ↔ Inside enqueuers sender b := by
  cases b with
  | none => exact absurd rfl h
  | some u => exact Iff.rfl

def Locked (st : State ι) : Prop := Excludes st.inventorySem (Inside st.enqueuers st.sender)

theorem Locked.outside_of_enqueuer (h : Locked st) {t : ι} (ht : (st.enqueuers t).inside = true) :
    st.sender.inside = false ∧ ∀ u, u ≠ t → (st.enqueuers u).inside = false := by
  constructor
  · exact Bool.eq_false_iff.mpr fun hs => Option.some_ne_none t (h.unique (a := some t) (b := none) ht hs)
  · exact fun u hu => Bool.eq_false_iff.mpr fun hin => hu (Option.some.inj (h.unique (a := some u) hin ht))

theorem Locked.outside_of_sender (h : Locked st) (hs : st.sender.inside = true) (u : ι) :
    (st.enqueuers u).inside = false :=
  Bool.eq_false_iff.mpr fun hu => Option.some_ne_none u (h.unique (a := some u) (b := none) hu hs)

theorem locked_senderStep (h : Locked st) (stack : List Char) : Locked (senderStep st stack) := by
  have hwait {sender : Sender} (hpos : 0 < st.inventorySem) (hin : sender.inside = true) :
      Excludes (st.inventorySem - 1) (Inside st.enqueuers sender) :=
    h.wait (a := none) hpos hin fun b hb => inside_sender_of_ne hb
  have hpost {sender : Sender} (hin : st.sender.inside = true) (hout : sender.inside = false) :
      Excludes (st.inventorySem + 1) (Inside st.enqueuers sender) := by
    refine h.post (a := none) hin ?_ fun b hb => inside_sender_of_ne hb
    rw [Inside, hout]
    exact Bool.false_ne_true
  have hstay {sender : Sender} (hsame : sender.inside = st.sender.inside) :
      Excludes st.inventorySem (Inside st.enqueuers sender) := by
    refine h.congr fun b => ?_
    cases b with
    | none => rw [Inside, hsame, Inside]
    | some u => exact Iff.rfl
  rw [senderStep]
  cases hs : st.sender with
  | idle =>
    dsimp only
    split
    · exact hstay (by rw [hs]; rfl)
    · exact h
  | waiting =>
    dsimp only
    split
    · next hpos => exact hwait hpos rfl
    · exact h
  | checking =>
    dsimp only
    refine hstay ?_
    rw [hs]
    split <;> rfl
  | empty | leaving => exact hpost (by rw [hs]; rfl) rfl
  | copying => exact hstay (by rw [hs]; rfl)
  | shifting buffer i =>
    dsimp only
    split <;> exact hstay (by rw [hs]; rfl)

variable [DecidableEq ι]

theorem inside_update_of_ne {b : Option ι} (h : b ≠ some t) :
    Inside (update enqueuers t pc) sender b ↔ Inside enqueuers sender b := by
  cases b with
  | none => exact Iff.rfl
  | some u => rw [Inside, update_of_ne fun he => h (congrArg some he), Inside]

theorem excludes_update (h : Excludes value (Inside enqueuers sender)) (hpc : pc.inside = (enqueuers t).inside) :
    Excludes value (Inside (update enqueuers t pc) sender) := by
  refine h.congr fun b => ?_
  by_cases hb : b = some t
  · subst hb
    rw [Inside, update_self, hpc, Inside]
  · exact inside_update_of_ne hb

theorem excludes_update_wait (h : Excludes value (Inside enqueuers sender)) (hpos : 0 < value)
    (hpc : pc.inside = true) : Excludes (value - 1) (Inside (update enqueuers t pc) sender) := by
  refine h.wait (a := some t) hpos ?_ fun b hb => inside_update_of_ne hb
  rw [Inside, update_self, hpc]

theorem excludes_update_post (h : Excludes value (Inside enqueuers sender)) (ht : (enqueuers t).inside = true)
    (hpc : pc.inside = false) : Excludes (value + 1) (Inside (update enqueuers t pc) sender) := by
  refine h.post (a := some t) ht ?_ fun b hb => inside_update_of_ne hb
  rw [Inside, update_self, hpc]
  exact Bool.false_ne_true

variable (serialize : Message → Option Text)

theorem locked_enqueuerStep (h : Locked st) (t : ι) : Locked (enqueuerStep serialize st t) := by
  rw [enqueuerStep]
  cases hpc : st.enqueuers t with
  | idle => exact h
  | waiting call =>
    dsimp only
    split
    · next hpos => exact excludes_update_wait h hpos rfl
    · exact h
  | checking call =>
    dsimp only
    split
    · exact excludes_update h (by rw [hpc]; rfl)
    · split
      · exact excludes_update h (by rw [hpc]; rfl)
      · exact excludes_update h (by rw [hpc]; rfl)
  | refused | leaving | elsewhere => exact excludes_update_post h (by rw [hpc]; rfl) rfl
  | copying text | counting text | posting => exact excludes_update h (by rw [hpc]; rfl)

theorem Enqueuer.eq_idle {pc : Enqueuer} (h : pc.isIdle = true) : pc = .idle := by
  cases pc with
  | idle => rfl
  | _ => cases h

theorem locked_step (h : Locked st) (e : Event ι) : Locked (step serialize st e) := by
  cases e with
  | call t call =>
    rw [step]
    split
    · next hidle => exact excludes_update h (by rw [Enqueuer.eq_idle hidle]; rfl)
    · exact h
  | other t =>
    rw [step]
    split
    · next hfree => exact excludes_update_wait h hfree.2 rfl
    · exact h
  | enqueuer t => exact locked_enqueuerStep serialize h t
  | sender stack => exact locked_senderStep h stack
  | wake => exact h

end Lock

section Refinement

variable {ι : Type} {st : State ι} {q : Queue Text} {slots : List (List Char)} {items : List Text} {count i : Nat}

def Shifted (slots : List (List Char)) (items : List Text) (i : Nat) : Prop :=
  ∀ j text, items[j]? = some text →
    (i ≤ j → slots[j]? = some text.padded) ∧ (1 ≤ j → j ≤ i → slots[j - 1]? = some text.padded)

def Enqueuer.Ok (slots : List (List Char)) (count : Nat) : Enqueuer → Prop
  | .copying _ => count < maxPendingMessages
  | .counting text => count < maxPendingMessages ∧ slots[count]? = some text.padded
  | _ => True

def Sender.Ok (items : List Text) : Sender → Prop
  | .copying => items ≠ []
  | .shifting buffer i => ∃ text rest, items = text :: rest ∧ cString buffer = text.chars ∧ i ≤ rest.length
  | _ => True

def Sender.shifts : Sender → Nat
  | .shifting _ i => i
  | _ => 0

/-- The shared memory stands for the queue, up to the work of the thread that holds
`inventory_sem`. -/
structure Represents (st : State ι) (q : Queue Text) : Prop where
  accepted : q.accepted = st.accepted
  popped : q.served.map Text.chars = st.popped
  count : st.messageCount = q.items.length
  length : st.pendingMessages.length = maxPendingMessages
  slots : ∀ slot ∈ st.pendingMessages, slot.drop (bufferSize - 1) = [nul]
  content : Shifted st.pendingMessages q.items st.sender.shifts
  enqueuers : ∀ t, (st.enqueuers t).Ok st.pendingMessages st.messageCount
  sender : st.sender.Ok q.items

theorem Enqueuer.ok_of_outside {pc : Enqueuer} (h : pc.inside = false) : pc.Ok slots count := by
  cases pc with
  | copying | counting => cases h
  | _ => exact trivial

theorem Sender.of_outside {sender : Sender} (h : sender.inside = false) (items : List Text) :
    sender.shifts = 0 ∧ sender.Ok items := by
  cases sender with
  | copying | shifting => cases h
  | _ => exact ⟨rfl, trivial⟩

theorem shifted_zero : Shifted slots items 0 ↔
    ∀ (j : Nat) (text : Text), items[j]? = some text → slots[j]? = some text.padded := by
  constructor
  · exact fun h j text hj => (h j text hj).1 (Nat.zero_le j)
  · exact fun h j text hj => ⟨fun _ => h j text hj, fun hpos hle => absurd hle (Nat.not_le.mpr hpos)⟩

theorem Shifted.set (h : Shifted slots items 0) (hcount : items.length ≤ count) (slot : List Char) :
    Shifted (slots.set count slot) items 0 := by
  rw [shifted_zero] at h ⊢
  intro j text hj
  obtain ⟨hlt, -⟩ := List.getElem?_eq_some_iff.mp hj
  rw [getElem?_set_ne (Nat.ne_of_gt (hlt.trans_le hcount))]
  exact h j text hj

theorem Shifted.concat {text : Text} (h : Shifted slots items 0) (hlast : slots[items.length]? = some text.padded) :
    Shifted slots (items ++ [text]) 0 := by
  rw [shifted_zero] at h ⊢
  intro j text' hj
  rw [getElem?_append] at hj
  split at hj
  · exact h j text' hj
  · obtain ⟨hone, he⟩ := List.getElem?_eq_some_iff.mp hj
    rw [length_singleton] at hone
    obtain rfl : j = items.length := by omega
    rw [getElem_singleton] at he
    exact he ▸ hlast

theorem Shifted.shift (h : Shifted slots items i) (hi : i + 1 < items.length) (hslots : items.length ≤ slots.length) :
    Shifted (slots.set i (slots.getD (i + 1) [])) items (i + 1) := by
  intro j text hj
  obtain ⟨hstay, hmoved⟩ := h j text hj
  refine ⟨fun hle => ?_, fun hpos hle => ?_⟩
  · rw [getElem?_set_ne (by omega)]
    exact hstay (by omega)
  · by_cases hlast : j = i + 1
    · subst hlast
      rw [Nat.add_sub_cancel, getElem?_set_self (by omega), getD_eq_getElem?_getD, hstay (Nat.le_succ i)]
      rfl
    · rw [getElem?_set_ne (by omega)]
      exact hmoved hpos (by omega)

theorem Shifted.tail {text : Text} {rest : List Text} (h : Shifted slots (text :: rest) i) (hi : rest.length ≤ i) :
    Shifted slots rest 0 := by
  rw [shifted_zero]
  intro j text' hj
  obtain ⟨hlt, -⟩ := List.getElem?_eq_some_iff.mp hj
  exact (h (j + 1) text' hj).2 (Nat.le_add_left 1 j) (by omega)

theorem represents_init (ι : Type) : Represents (init ι) ⟨[], [], []⟩ where
  accepted := rfl
  popped := rfl
  count := rfl
  length := length_replicate
  slots slot hslot := by
    rw [eq_of_mem_replicate hslot]
    decide +kernel
  content := by
    intro j text hj
    cases hj
  enqueuers _ := trivial
  sender := trivial

namespace Represents

variable (h : Represents st q)
include h

theorem semaphores (inventorySem messageAvailableSem : Nat) :
    Represents { st with inventorySem := inventorySem, messageAvailableSem := messageAvailableSem } q :=
  ⟨h.accepted, h.popped, h.count, h.length, h.slots, h.content, h.enqueuers, h.sender⟩

theorem setSender {sender : Sender} (hshifts : sender.shifts = st.sender.shifts)
    (hok : sender.Ok q.items) : Represents { st with sender := sender } q where
  accepted := h.accepted
  popped := h.popped
  count := h.count
  length := h.length
  slots := h.slots
  content := hshifts ▸ h.content
  enqueuers := h.enqueuers
  sender := hok

theorem slots_getD (hi : i < maxPendingMessages) :
    (st.pendingMessages.getD i []).drop (bufferSize - 1) = [nul] := by
  rw [getD_eq_getElem _ _ (h.length ▸ hi)]
  exact h.slots _ (getElem_mem _)

theorem slots_set (i : Nat) {slot : List Char}
    (hslot : slot.drop (bufferSize - 1) = [nul]) :
    ∀ slot' ∈ st.pendingMessages.set i slot, slot'.drop (bufferSize - 1) = [nul] := by
  intro slot' hmem
  rcases mem_or_eq_of_mem_set hmem with hmem | rfl
  · exact h.slots slot' hmem
  · exact hslot

theorem copy (hs : st.sender = .copying) (stack : List Char) :
    Represents (senderStep st stack) q := by
  have hok := h.sender
  rw [hs] at hok
  obtain ⟨text, rest, hitems⟩ := exists_cons_of_ne_nil hok
  have hslot : st.pendingMessages[0]? = some text.padded := by
    have hcontent := h.content
    rw [hs, hitems] at hcontent
    exact (hcontent 0 text rfl).1 (Nat.le_refl 0)
  rw [senderStep, hs]
  refine h.setSender (by rw [hs]; rfl) ⟨text, rest, hitems, ?_, Nat.zero_le _⟩
  rw [getD_eq_getElem?_getD, hslot]
  exact text.cString_strncpy stack

theorem shift (hlocked : Locked st) (hle : q.items.length ≤ maxPendingMessages)
    {buffer : List Char} (hs : st.sender = .shifting buffer i) (stack : List Char) :
    ∃ q', (q' = q ∨ Step maxPendingMessages q q') ∧ Represents (senderStep st stack) q' := by
  have hcontent : Shifted st.pendingMessages q.items (Sender.shifting buffer i).shifts := hs ▸ h.content
  have hok := h.sender
  have houtside : ∀ t, (st.enqueuers t).inside = false := hlocked.outside_of_sender (by rw [hs]; rfl)
  rw [hs] at hok
  rw [Sender.shifts] at hcontent
  obtain ⟨text, rest, hitems, hbuffer, hi⟩ := hok
  have hcount := h.count
  rw [hitems, length_cons] at hcount hle
  rw [senderStep, hs]
  dsimp only
  split
  · refine ⟨q, .inl rfl, h.accepted, h.popped, h.count, ?_, ?_, ?_, ?_, ?_⟩
    · rw [length_set]
      exact h.length
    · exact h.slots_set i (h.slots_getD (by omega))
    · refine Shifted.shift hcontent ?_ ?_
      · rw [hitems, length_cons]
        omega
      · rw [hitems, length_cons, h.length]
        exact hle
    · exact fun t => Enqueuer.ok_of_outside (houtside t)
    · exact ⟨text, rest, hitems, hbuffer, by omega⟩
  · refine ⟨⟨rest, q.accepted, q.served ++ [text]⟩, .inr (.dequeue hitems), h.accepted, ?_, ?_, h.length, h.slots,
      ?_, ?_, trivial⟩
    · rw [map_append, h.popped, hbuffer]
      rfl
    · dsimp only
      omega
    · rw [hitems] at hcontent
      exact hcontent.tail (by omega)
    · exact fun t => Enqueuer.ok_of_outside (houtside t)

end Represents

theorem represents_senderStep (hlocked : Locked st) (h : Represents st q) (hle : q.items.length ≤ maxPendingMessages)
    (stack : List Char) : ∃ q', (q' = q ∨ Step maxPendingMessages q q') ∧ Represents (senderStep st stack) q' := by
  cases hs : st.sender with
  | copying => exact ⟨q, .inl rfl, h.copy hs stack⟩
  | shifting buffer i => exact h.shift hlocked hle hs stack
  | idle =>
    refine ⟨q, .inl rfl, ?_⟩
    rw [senderStep, hs]
    dsimp only
    split
    · exact (h.semaphores st.inventorySem (st.messageAvailableSem - 1)).setSender (by rw [hs]; rfl) trivial
    · exact h
  | waiting =>
    refine ⟨q, .inl rfl, ?_⟩
    rw [senderStep, hs]
    dsimp only
    split
    · exact (h.semaphores (st.inventorySem - 1) st.messageAvailableSem).setSender (by rw [hs]; rfl) trivial
    · exact h
  | checking =>
    refine ⟨q, .inl rfl, ?_⟩
    rw [senderStep, hs]
    dsimp only
    split
    · exact h.setSender (by rw [hs]; rfl) trivial
    · next hne =>
      refine h.setSender (by rw [hs]; rfl) fun hnil => hne ?_
      rw [h.count, hnil]
      rfl
  | empty | leaving =>
    refine ⟨q, .inl rfl, ?_⟩
    rw [senderStep, hs]
    exact (h.semaphores (st.inventorySem + 1) st.messageAvailableSem).setSender (by rw [hs]; rfl) trivial

variable [DecidableEq ι] (serialize : Message → Option Text)

theorem Represents.moveTo (h : Represents st q) (t : ι) {pc : Enqueuer}
    (hpc : pc.Ok st.pendingMessages st.messageCount) : Represents (st.moveTo t pc) q where
  accepted := h.accepted
  popped := h.popped
  count := h.count
  length := h.length
  slots := h.slots
  content := h.content
  enqueuers := (forall_update_iff st.enqueuers fun _ pc => pc.Ok st.pendingMessages st.messageCount).mpr
    ⟨hpc, fun u _ => h.enqueuers u⟩
  sender := h.sender

theorem Represents.store (h : Represents st q) (hlocked : Locked st) {t : ι} {text : Text}
    (ht : st.enqueuers t = .copying text) : Represents (enqueuerStep serialize st t) q := by
  have hlt : st.messageCount < maxPendingMessages := by
    have hok := h.enqueuers t
    rwa [ht] at hok
  obtain ⟨hsender, hothers⟩ := hlocked.outside_of_enqueuer (t := t) (by rw [ht]; rfl)
  obtain ⟨hshifts, hok⟩ := Sender.of_outside hsender q.items
  have hcontent := h.content
  have hlength := h.length
  rw [hshifts] at hcontent
  have hwritten : strncpy (st.pendingMessages.getD st.messageCount []) text.chars (bufferSize - 1) = text.padded :=
    text.strncpy_slot (h.slots_getD (by omega))
  rw [enqueuerStep, ht]
  dsimp only
  rw [hwritten]
  refine ⟨h.accepted, h.popped, h.count, ?_, ?_, ?_, ?_, hok⟩
  · exact length_set.trans hlength
  · exact h.slots_set _ text.drop_padded
  · exact (congrArg (Shifted _ q.items) hshifts).mpr (hcontent.set h.count.ge _)
  · refine (forall_update_iff st.enqueuers fun _ pc => pc.Ok _ st.messageCount).mpr
      ⟨⟨hlt, ?_⟩, fun u hu => Enqueuer.ok_of_outside (hothers u hu)⟩
    exact getElem?_set_self (by omega)

theorem Represents.accept (h : Represents st q) (hlocked : Locked st) {t : ι} {text : Text}
    (ht : st.enqueuers t = .counting text) :
    ∃ q', Step maxPendingMessages q q' ∧ Represents (enqueuerStep serialize st t) q' := by
  have hok := h.enqueuers t
  rw [ht] at hok
  obtain ⟨hlt, hslot⟩ := hok
  obtain ⟨hsender, hothers⟩ := hlocked.outside_of_enqueuer (t := t) (by rw [ht]; rfl)
  obtain ⟨hshifts, hfree⟩ := Sender.of_outside hsender (q.items ++ [text])
  have hcontent := h.content
  rw [hshifts] at hcontent
  rw [h.count] at hlt hslot
  refine ⟨⟨q.items ++ [text], q.accepted ++ [text], q.served⟩, .enqueue text hlt, ?_⟩
  rw [enqueuerStep, ht]
  refine ⟨congrArg (· ++ [text]) h.accepted, h.popped, ?_, h.length, h.slots, ?_, ?_, hfree⟩
  · change st.messageCount + 1 = (q.items ++ [text]).length
    rw [length_append, h.count]
    rfl
  · exact (congrArg (Shifted _ _) hshifts).mpr (hcontent.concat hslot)
  · exact (forall_update_iff st.enqueuers fun _ pc => pc.Ok _ (st.messageCount + 1)).mpr
      ⟨trivial, fun u hu => Enqueuer.ok_of_outside (hothers u hu)⟩

theorem represents_enqueuerStep (hlocked : Locked st) (h : Represents st q) (t : ι) :
    ∃ q', (q' = q ∨ Step maxPendingMessages q q') ∧ Represents (enqueuerStep serialize st t) q' := by
  have hstays {st' : State ι} (hst : enqueuerStep serialize st t = st') (h' : Represents st' q) :
      ∃ q', (q' = q ∨ Step maxPendingMessages q q') ∧ Represents (enqueuerStep serialize st t) q' :=
    ⟨q, .inl rfl, hst ▸ h'⟩
  cases hpc : st.enqueuers t with
  | copying text => exact hstays rfl (h.store serialize hlocked hpc)
  | counting text =>
    obtain ⟨q', hstep, h'⟩ := h.accept serialize hlocked hpc
    exact ⟨q', .inr hstep, h'⟩
  | idle => exact hstays (by rw [enqueuerStep, hpc]) h
  | waiting call =>
    refine hstays (by rw [enqueuerStep, hpc]) ?_
    dsimp only
    split
    · exact (h.semaphores (st.inventorySem - 1) st.messageAvailableSem).moveTo t trivial
    · exact h
  | checking call =>
    refine hstays (by rw [enqueuerStep, hpc]) ?_
    dsimp only
    split
    · exact h.moveTo t trivial
    · next hroom =>
      split
      · exact h.moveTo t trivial
      · exact h.moveTo t (Nat.not_le.mp hroom)
  | refused | leaving | elsewhere =>
    refine hstays (by rw [enqueuerStep, hpc]) ?_
    exact (h.semaphores (st.inventorySem + 1) st.messageAvailableSem).moveTo t trivial
  | posting =>
    refine hstays (by rw [enqueuerStep, hpc]) ?_
    exact (h.semaphores st.inventorySem (st.messageAvailableSem + 1)).moveTo t trivial

theorem represents_step (hlocked : Locked st) (h : Represents st q) (hle : q.items.length ≤ maxPendingMessages)
    (e : Event ι) : ∃ q', (q' = q ∨ Step maxPendingMessages q q') ∧ Represents (step serialize st e) q' := by
  cases e with
  | call t call =>
    refine ⟨q, .inl rfl, ?_⟩
    rw [step]
    split
    · exact h.moveTo t trivial
    · exact h
  | other t =>
    refine ⟨q, .inl rfl, ?_⟩
    rw [step]
    split
    · exact (h.semaphores (st.inventorySem - 1) st.messageAvailableSem).moveTo t trivial
    · exact h
  | enqueuer t => exact represents_enqueuerStep serialize hlocked h t
  | sender stack => exact represents_senderStep hlocked h hle stack
  | wake => exact ⟨q, .inl rfl, h.semaphores st.inventorySem (st.messageAvailableSem + 1)⟩

theorem represents_run (events : List (Event ι)) : Locked (run serialize events) ∧
    ∃ q, Reach Init (Step maxPendingMessages) q ∧ Represents (run serialize events) q := by
  refine List.foldlRecOn (motive := fun st => Locked st ∧
    ∃ q, Reach Init (Step maxPendingMessages) q ∧ Represents st q) events (step serialize) ?_ ?_
  · refine ⟨.inl ⟨rfl, fun b => ?_⟩, ⟨[], [], []⟩, .start rfl, represents_init ι⟩
    cases b <;> exact Bool.false_ne_true
  · rintro st ⟨hlocked, q, hreach, h⟩ e -
    refine ⟨locked_step serialize hlocked e, ?_⟩
    obtain ⟨q', hq', h'⟩ := represents_step serialize hlocked h (reach_fifo hreach).2 e
    rcases hq' with rfl | hstep
    · exact ⟨q', hreach, h'⟩
    · exact ⟨q', .next hreach hstep, h'⟩

def SameQueue (st st' : State ι) : Prop :=
  st'.pendingMessages = st.pendingMessages ∧ st'.messageCount = st.messageCount ∧
    st'.messageAvailableSem = st.messageAvailableSem ∧ st'.accepted = st.accepted ∧ st'.popped = st.popped

def Refusing (st : State ι) (t : ι) : Prop :=
  (∃ call, st.enqueuers t = .waiting call) ∨ st.enqueuers t = .refused ∨
    (enqueuerStep serialize st t).enqueuers t = .refused

theorem sameQueue_of_refusing {t : ι} (h : Refusing serialize st t) : SameQueue st (enqueuerStep serialize st t) := by
  have hsame : SameQueue st st := ⟨rfl, rfl, rfl, rfl, rfl⟩
  rw [Refusing] at h
  rw [enqueuerStep] at h ⊢
  cases hpc : st.enqueuers t with
  | idle => exact hsame
  | waiting call =>
    dsimp only
    split
    · exact ⟨rfl, rfl, rfl, rfl, rfl⟩
    · exact hsame
  | checking call =>
    dsimp only
    split
    · exact ⟨rfl, rfl, rfl, rfl, rfl⟩
    · split <;> exact ⟨rfl, rfl, rfl, rfl, rfl⟩
  | refused | leaving | elsewhere => exact ⟨rfl, rfl, rfl, rfl, rfl⟩
  | copying | counting | posting =>
    rw [hpc] at h
    simp only [State.moveTo, update_self] at h
    rcases h with ⟨call, h⟩ | h | h <;> cases h

end Refinement

section Tokens

variable {ι : Type} [Fintype ι] {st : State ι}

def Enqueuer.unposted : Enqueuer → Bool
  | .leaving | .posting => true
  | _ => false

def Sender.hasToken : Sender → Bool
  | .waiting | .checking | .copying | .shifting _ _ => true
  | _ => false

def tokens (st : State ι) : Nat :=
  st.messageAvailableSem + tally Enqueuer.unposted st.enqueuers + st.sender.hasToken.toNat

theorem tokens_post (st : State ι) :
    tokens { st with messageAvailableSem := st.messageAvailableSem + 1 } = tokens st + 1 := by
  rw [tokens, tokens]
  dsimp only
  omega

theorem covered_senderStep (h : st.messageCount ≤ tokens st) (stack : List Char) :
    (senderStep st stack).messageCount ≤ tokens (senderStep st stack) := by
  have hle := h
  rw [tokens] at hle
  rw [senderStep]
  cases hs : st.sender with
  | idle =>
    rw [hs] at hle
    dsimp only
    split
    · change st.messageCount ≤ st.messageAvailableSem - 1 + tally Enqueuer.unposted st.enqueuers + 1
      change st.messageCount ≤ st.messageAvailableSem + tally Enqueuer.unposted st.enqueuers + 0 at hle
      omega
    · exact h
  | waiting =>
    rw [hs] at hle
    dsimp only
    split
    · exact hle
    · exact h
  | checking =>
    rw [hs] at hle
    dsimp only
    split
    · next hzero =>
      rw [hzero]
      exact Nat.zero_le _
    · exact hle
  | empty | copying | leaving =>
    rw [hs] at hle
    exact hle
  | shifting buffer i =>
    rw [hs] at hle
    dsimp only
    split
    · exact hle
    · exact Nat.sub_le_of_le_add hle

variable [DecidableEq ι] (serialize : Message → Option Text)

theorem covered_moveTo {t : ι} {pc pc' : Enqueuer} (hpc : st.enqueuers t = pc)
    (h : st.messageCount + pc.unposted.toNat ≤ tokens st + pc'.unposted.toNat) :
    (st.moveTo t pc').messageCount ≤ tokens (st.moveTo t pc') := by
  have htally := tally_update Enqueuer.unposted st.enqueuers t pc'
  rw [hpc] at htally
  rw [tokens] at h
  rw [tokens, State.moveTo]
  dsimp only
  omega

theorem covered_enqueuerStep (h : st.messageCount ≤ tokens st) (t : ι) :
    (enqueuerStep serialize st t).messageCount ≤ tokens (enqueuerStep serialize st t) := by
  rw [enqueuerStep]
  cases hpc : st.enqueuers t with
  | idle => exact h
  | waiting call =>
    dsimp only
    split
    · exact covered_moveTo hpc h
    · exact h
  | checking call =>
    dsimp only
    split
    · exact covered_moveTo hpc h
    · split <;> exact covered_moveTo hpc h
  | refused | copying | elsewhere => exact covered_moveTo hpc h
  | counting | leaving => exact covered_moveTo hpc (Nat.succ_le_succ h)
  | posting =>
    refine covered_moveTo hpc ?_
    rw [tokens_post]
    exact Nat.succ_le_succ h

theorem covered_step (h : st.messageCount ≤ tokens st) (e : Event ι) :
    (step serialize st e).messageCount ≤ tokens (step serialize st e) := by
  cases e with
  | call t call =>
    rw [step]
    split
    · next hidle => exact covered_moveTo (Enqueuer.eq_idle hidle) h
    · exact h
  | other t =>
    rw [step]
    split
    · next hfree => exact covered_moveTo (Enqueuer.eq_idle hfree.1) h
    · exact h
  | enqueuer t => exact covered_enqueuerStep serialize h t
  | sender stack => exact covered_senderStep h stack
  | wake =>
    rw [step, tokens_post]
    exact Nat.le_succ_of_le h

theorem covered_run (events : List (Event ι)) : (run serialize events).messageCount ≤ tokens (run serialize events) :=
  List.foldlRecOn (motive := fun st => st.messageCount ≤ tokens st) events (step serialize) (Nat.zero_le _)
    fun _ h e _ => covered_step serialize h e

/-- Whatever the threads do in turn, the queue in the shared memory is a bounded queue: the
sender pops the texts that were accepted, in their order, each once and unchanged; the
queue is never overfull; a failed call leaves it as it is; and for every queued message
there is a token, a thread that is about to post one, or the sender itself with one. -/
theorem pending_queue_refines_fifo (events : List (Event ι)) :
    (∃ q, Reach Init (Step maxPendingMessages) q ∧ Represents (run serialize events) q) ∧
      (run serialize events).popped <+: (run serialize events).accepted.map Text.chars ∧
      (run serialize events).popped.length + (run serialize events).messageCount =
        (run serialize events).accepted.length ∧ (run serialize events).messageCount ≤ maxPendingMessages ∧
      (∀ t, Refusing serialize (run serialize events) t →
        SameQueue (run serialize events) (step serialize (run serialize events) (.enqueuer t))) ∧
      (run serialize events).messageCount ≤ (run serialize events).messageAvailableSem +
        tally Enqueuer.unposted (run serialize events).enqueuers + (run serialize events).sender.hasToken.toNat := by
  obtain ⟨-, q, hreach, h⟩ := represents_run serialize events
  obtain ⟨hfifo, hle⟩ := reach_fifo hreach
  have hchars := congrArg (List.map Text.chars) hfifo
  rw [map_append, h.popped, h.accepted] at hchars
  refine ⟨⟨q, hreach, h⟩, ?_, ?_, h.count ▸ hle, fun t => sameQueue_of_refusing serialize, covered_run serialize events⟩
  · exact hchars ▸ prefix_append _ _
  · have hlength := congrArg List.length hchars
    rw [length_map, length_append, length_map, ← h.count] at hlength
    exact hlength.symm

end Tokens

end Logistics.PendingQueue
