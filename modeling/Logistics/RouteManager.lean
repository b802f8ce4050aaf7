import Logistics.MessageSize
import Logistics.MqttClient

namespace Logistics.RouteManager

open JsonManager JsonText Deserialize MqttClient List

structure Config where
  routeMaxStops : Nat
  routeStopNameMax : Nat
  maxStops_range : 1 ≤ routeMaxStops ∧ routeMaxStops ≤ 64
  nameMax_range : 8 ≤ routeStopNameMax ∧ routeStopNameMax ≤ 256

structure RouteState where
  stops : List String
  currentIndex : Nat
deriving DecidableEq

def routeManagerClear : RouteState := ⟨[], 0⟩

def routeManagerUpdate (cfg : Config) (stops : List String) (s : RouteState) : RouteState :=
  let space := cfg.routeMaxStops - s.stops.length
  { s with stops := s.stops ++ (stops.take space).map (safeStrcpy cfg.routeStopNameMax) }

def getCurrentStop (s : RouteState) : Option String := s.stops[s.currentIndex]?

def advanceStop (s : RouteState) : Bool × RouteState :=
  if s.currentIndex < s.stops.length then (true, { s with currentIndex := s.currentIndex + 1 }) else (false, s)

def routeManagerParseJson (cfg : Config) (json : Option Json) (s : RouteState) : Bool × RouteState :=
  match json with
  | some (.array []) => (true, routeManagerClear)
  | some (.array items) =>
    match (items.take cfg.routeMaxStops).mapM Doc.text with
    | some stops => (true, routeManagerUpdate cfg stops s)
    | none => (false, s)
  | _ => (false, s)

def mqttBufferSize : Nat := 1024

def handlePublish (cfg : Config) (parse : String → Option Json) (topic payload : String) (s : RouteState) :
    RouteState :=
  if "routes/".toList <+: topic.toList then
    (routeManagerParseJson cfg (parse (String.ofList (payload.toList.take mqttBufferSize))) s).2
  else s

def mqttPayloadSize : Nat := 192

def deliveredText (stop : String) : String := "\x7b\"stop\":\"" ++ stop ++ "\",\"status\":\"done\"\x7d"

/-- `on_delivered_pressed` on a route in any form: the payload that is published, if any, and the route after it.
`published` says whether the publishing works. -/
def pressDelivered {S : Type} (currentStop : S → Option String) (advance : S → Bool × S) (published : Bool) (s : S) :
    Option String × S :=
  match currentStop s with
  | none => (none, s)
  | some stop =>
    if mqttPayloadSize ≤ (deliveredText stop).length then (none, s)
    else if published then (some (deliveredText stop), (advance s).2)
    else (none, s)

def onDeliveredPressed (published : Bool) (s : RouteState) : Option String × RouteState :=
  pressDelivered getCurrentStop advanceStop published s

inductive Event
  | publish (topic payload : String)
  | delivered (published : Bool)

def step (cfg : Config) (parse : String → Option Json) (s : RouteState) : Event → RouteState
  | .publish topic payload => handlePublish cfg parse topic payload s
  | .delivered published => (onDeliveredPressed published s).2

def readPayload (parse : String → Option Json) (payload : String) : MqttClient.Payload :=
  match parse payload with
  | none => .invalid
  | some json =>
    match json.textItem "stop" with
    | none => .missingStop
    | some stop => .stop stop

open DecimalText Serialize

/-- cJSON reads the two documents that carry a stop. -/
structure ReadsStops (parse : String → Option Json) : Prop where
  route : ∀ stop, Unescaped stop → parse ("[\"" ++ stop ++ "\"]") = some (.array [.string stop])
  delivered : ∀ stop, Unescaped stop →
    parse (deliveredText stop) = some (.object [("stop", .string stop), ("status", .string "done")])

variable {cfg : Config} {parse : String → Option Json} {text : List Char} {id : Nat}

def isNameChar (c : Char) : Bool := c.isAlpha || c = ' '

theorem stoi_of_alpha (h : ∀ c ∈ text, c.isAlpha) : stoi text = none := by
  cases text with
  | nil => rfl
  | cons c rest =>
    have hc := h c mem_cons_self
    have hbounds : (65 ≤ c.toNat ∧ c.toNat ≤ 90) ∨ (97 ≤ c.toNat ∧ c.toNat ≤ 122) := by
      have hcases : c.isUpper ∨ c.isLower := Bool.or_eq_true_iff.mp hc
      rcases hcases with hupper | hlower
      · have hrange : 'A'.val ≤ c.val ∧ c.val ≤ 'Z'.val := of_decide_eq_true hupper
        exact .inl hrange
      · obtain ⟨hlow, hhigh⟩ := Bool.and_eq_true_iff.mp hlower
        have hrange : 'a'.val ≤ c.val ∧ c.val ≤ 'z'.val := ⟨of_decide_eq_true hlow, of_decide_eq_true hhigh⟩
        exact .inr hrange
    have hspace : isSpace c = false := by
      simp only [isSpace, decide_eq_false_iff_not]
      omega
    have hdigit : c.isDigit = false := by
      by_contra hne
      have hdigits := isDigit_bounds (Bool.eq_true_of_not_eq_false hne)
      omega
    have hsign : splitSign (c :: rest) = (false, c :: rest) := by
      rw [splitSign]
      · rintro rest ⟨⟩
        exact absurd hbounds (by decide)
      · rintro rest ⟨⟩
        exact absurd hbounds (by decide)
    have hdrop : (c :: rest).dropWhile isSpace = c :: rest :=
      dropWhile_cons_of_neg (by rw [hspace]; exact Bool.false_ne_true)
    have htake : (c :: rest).takeWhile Char.isDigit = [] :=
      takeWhile_cons_of_neg (by rw [hdigit]; exact Bool.false_ne_true)
    simp only [stoi, hdrop, hsign, htake]
    exact if_pos (.inl trivial)

theorem stopTransaction_of_name (h : ∀ c ∈ text, isNameChar c) : stopTransaction (String.ofList text) = none := by
  rw [stopTransaction, String.toList_ofList, afterLastBlank]
  split
  · have hword : ∀ c ∈ (text.reverse.takeWhile (· ≠ ' ')).reverse, c.isAlpha := by
      intro c hc
      have hmem := mem_reverse.mp hc
      have hne := mem_takeWhile_imp hmem
      have hname := h c (mem_reverse.mp ((takeWhile_sublist _).subset hmem))
      simp only [isNameChar, Bool.or_eq_true, decide_eq_true_eq] at hname
      exact hname.resolve_right (by simpa using hne)
    rw [Option.bind_some, stoi_of_alpha hword]
    rfl
  · rfl

theorem stopTransaction_of_digits (name : List Char) {digits : List Char} (hne : digits ≠ [])
    (hdigits : ∀ c ∈ digits, c.isDigit) (hlt : Nat.ofDigitChars 10 digits 0 < 2 ^ 31) :
    stopTransaction (String.ofList (name ++ ' ' :: digits)) = some (Nat.ofDigitChars 10 digits 0) := by
  have hblank : ' ' ∉ digits := fun hmem => absurd (hdigits ' ' hmem) (by decide)
  rw [stopTransaction, String.toList_ofList, afterLastBlank_append _ hblank, Option.bind_some,
    stoi_of_digits hne hdigits hlt, Option.bind_some, if_neg (by omega)]
  rfl

theorem ofDigitChars_take {k : Nat} (hk : k < (Nat.toDigits 10 id).length) (hk' : 0 < k) :
    Nat.ofDigitChars 10 ((Nat.toDigits 10 id).take k) 0 < id := by
  have hsplit : id = Nat.ofDigitChars 10 ((Nat.toDigits 10 id).drop k)
      (Nat.ofDigitChars 10 ((Nat.toDigits 10 id).take k) 0) := by
    rw [← Nat.ofDigitChars_append, take_append_drop, Nat.ofDigitChars_ten_toDigits]
  rw [Nat.ofDigitChars_eq_ofDigitChars_zero, length_drop] at hsplit
  have hpow : 10 ≤ 10 ^ ((Nat.toDigits 10 id).length - k) := Nat.le_self_pow (by omega) 10
  have hpos : 0 < id := by
    by_contra hzero
    obtain rfl : id = 0 := by omega
    have hone : (Nat.toDigits 10 0).length = 1 := by decide
    omega
  generalize Nat.ofDigitChars 10 ((Nat.toDigits 10 id).take k) 0 = v at hsplit ⊢
  have hmul := Nat.mul_le_mul_right v hpow
  omega

theorem toList_stopText (name : String) (id : Nat) :
    (stopText name id).toList = (name.toList ++ [' ']) ++ Nat.toDigits 10 id := by
  rw [stopText, String.toList_append, String.toList_append, Nat.toString_eq_repr, Nat.toList_repr]
  rfl

/-- What is left of a stop in a slot of the firmware: part of the name, the name with
part of the number, or all of it. -/
theorem stopTransaction_stored (name : String) (hname : ∀ c ∈ name.toList, isNameChar c) (hid : id < 2 ^ 31)
    (size : Nat) : (stopTransaction (safeStrcpy size (stopText name id)) = none ∨
      stopTransaction (safeStrcpy size (stopText name id)) = some id) ↔
    size ≤ name.length + 2 ∨ (stopText name id).length < size := by
  have hlength : (name.toList ++ [' ']).length = name.length + 1 := by simp [String.length_toList]
  have hfull : (stopText name id).length = name.length + 1 + (Nat.toDigits 10 id).length := by
    rw [← String.length_toList, toList_stopText, length_append, hlength]
  have hblank : ∀ c ∈ name.toList ++ [' '], isNameChar c := by
    intro c hc
    rcases mem_append.mp hc with hc | hc
    · exact hname c hc
    · rw [mem_singleton.mp hc]
      rfl
  have hdigits : ∀ c ∈ Nat.toDigits 10 id, c.isDigit := fun c hc =>
    Nat.isDigit_of_mem_toDigits (by decide) (by decide) hc
  rw [safeStrcpy, toList_stopText, take_append, hlength]
  by_cases hshort : size ≤ name.length + 2
  · have hnone : stopTransaction (String.ofList ((name.toList ++ [' ']).take (size - 1) ++
        (Nat.toDigits 10 id).take (size - 1 - (name.length + 1)))) = none := by
      have hzero : size - 1 - (name.length + 1) = 0 := by omega
      rw [hzero, take_zero, append_nil]
      exact stopTransaction_of_name fun c hc => hblank c (mem_of_mem_take hc)
    exact iff_of_true (.inl hnone) (.inl hshort)
  · have hk : 0 < size - 1 - (name.length + 1) := by omega
    have htake : (name.toList ++ [' ']).take (size - 1) = name.toList ++ [' '] :=
      take_of_length_le (by omega)
    have hne : (Nat.toDigits 10 id).take (size - 1 - (name.length + 1)) ≠ [] := by
      rw [Ne, take_eq_nil_iff]
      exact not_or.mpr ⟨Nat.ne_of_gt hk, Nat.toDigits_ne_nil⟩
    rw [htake, append_assoc, singleton_append]
    by_cases hlong : (Nat.toDigits 10 id).length ≤ size - 1 - (name.length + 1)
    · rw [take_of_length_le hlong]
      have hvalue : Nat.ofDigitChars 10 (Nat.toDigits 10 id) 0 = id := Nat.ofDigitChars_ten_toDigits
      rw [stopTransaction_of_digits _ Nat.toDigits_ne_nil hdigits (by rwa [hvalue]), hvalue]
      exact iff_of_true (.inr rfl) (.inr (by omega))
    · have hlt := ofDigitChars_take (Nat.lt_of_not_le hlong) hk
      rw [stopTransaction_of_digits _ hne (fun c hc => hdigits c (mem_of_mem_take hc)) (by omega)]
      refine iff_of_false ?_ (by omega)
      rintro (hnone | hsome)
      · cases hnone
      · exact absurd (Option.some.inj hsome) (Nat.ne_of_lt hlt)

def Event.Clears (parse : String → Option Json) : Event → Prop
  | .publish topic payload => "routes/".toList <+: topic.toList ∧
      parse (String.ofList (payload.toList.take mqttBufferSize)) = some (.array [])
  | .delivered _ => False

variable {s : RouteState}

theorem stops_routeManagerParseJson {json : Option Json} (h : json ≠ some (.array [])) :
    s.stops <+: (routeManagerParseJson cfg json s).2.stops := by
  rw [routeManagerParseJson.eq_def]
  split
  next => exact absurd rfl h
  next =>
    split
    next => exact prefix_append _ _
    next => exact prefix_rfl
  next => exact prefix_rfl

theorem stops_onDeliveredPressed (published : Bool) (s : RouteState) :
    (onDeliveredPressed published s).2.stops = s.stops := by
  rw [onDeliveredPressed, pressDelivered]
  cases getCurrentStop s with
  | none => rfl
  | some stop =>
    have hadvance : (advanceStop s).2.stops = s.stops := by
      rw [advanceStop]
      split <;> rfl
    dsimp only
    split
    next => rfl
    next =>
      split
      next => exact hadvance
      next => rfl

theorem stops_step {event : Event} (h : ¬ event.Clears parse) : s.stops <+: (step cfg parse s event).stops := by
  cases event with
  | publish topic payload =>
    rw [step, handlePublish]
    split
    next htopic =>
      have hparse : parse (String.ofList (payload.toList.take mqttBufferSize)) ≠ some (.array []) :=
        fun heq => h ⟨htopic, heq⟩
      exact stops_routeManagerParseJson hparse
    next => exact prefix_rfl
  | delivered published => rw [step, stops_onDeliveredPressed]

variable {later : List Event}

theorem stops_foldl (h : ∀ event ∈ later, ¬ event.Clears parse) :
    s.stops <+: (later.foldl (step cfg parse) s).stops := by
  induction later generalizing s with
  | nil => exact prefix_rfl
  | cons event later ih =>
    obtain ⟨hfirst, hrest⟩ := forall_mem_cons.mp h
    exact (stops_step hfirst).trans (ih hrest)

theorem getCurrentStop_foldl (h : ∀ event ∈ later, ¬ event.Clears parse) {stops : List String} {stop : String}
    (hs : s.stops = stops ++ [stop]) (hcurrent : (later.foldl (step cfg parse) s).currentIndex = stops.length) :
    getCurrentStop (later.foldl (step cfg parse) s) = some stop := by
  have hgrown : s.stops <+: (later.foldl (step cfg parse) s).stops := stops_foldl h
  obtain ⟨rest, hrest⟩ := hgrown
  rw [getCurrentStop, hcurrent, ← hrest, hs, append_assoc, singleton_append, getElem?_append_right
    (Nat.le_refl _), Nat.sub_self, getElem?_cons_zero]

end Logistics.RouteManager
